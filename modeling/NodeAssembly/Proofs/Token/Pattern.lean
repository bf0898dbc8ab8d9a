import Mathlib.Computability.Language
import NodeAssembly.Token.Lexer

/-! The patterns of the tokens as regular languages. They say what a lexeme may
look like without saying how it is found. -/

namespace NodeAssembly

open NodeAssembly.Text
open scoped Computability

namespace Pattern

/-- One character that satisfies the condition. -/
def one (condition : Char → Prop) : Language Char :=
  {text | ∃ char, condition char ∧ text = [char]}

def exactly (char : Char) : Language Char :=
  one (· = char)

/-- The language once or several times. -/
def many (language : Language Char) : Language Char :=
  language * language∗

def digit : Language Char :=
  one (isDigit ·)

/-- A minus sign or nothing. -/
def sign : Language Char :=
  1 + exactly '-'

def separators : Language Char :=
  many (one (Lexeme.isSeparator ·))

def integer : Language Char :=
  sign * many digit

def decimal : Language Char :=
  sign * many digit * exactly '.' * digit∗ + sign * exactly '.' * many digit

def name : Language Char :=
  one (isLetter ·) * (one (isWordChar ·))∗

def register : Language Char :=
  exactly '$' * name

/-- What stands between two quotes: characters other than the quote and the
backslash, and backslashes with the character after each of them. -/
def content (quote : Char) : Language Char :=
  (one (fun char => char ≠ quote ∧ char ≠ '\\') + exactly '\\' * one (· ≠ '\n'))∗

def quoted (quote : Char) : Language Char :=
  exactly quote * content quote * exactly quote

/-- Everything that is matched. -/
def any : Language Char :=
  separators + integer + decimal + quoted '"' + quoted '\'' + register + name +
    exactly '+' + exactly '-'

/-- The slice is in the language, and no longer start of the text is. -/
def IsLongest (language : Language Char) (slice rest : List Char) : Prop :=
  slice ∈ language ∧
    ∀ longer, longer <+: slice ++ rest → longer ∈ language → longer.length ≤ slice.length

/-- No start of the text is in the language. -/
def Avoids (language : Language Char) (text : List Char) : Prop :=
  ∀ slice, slice <+: text → slice ∉ language

/-! ## Membership -/

variable {condition : Char → Prop} {language : Language Char} {char : Char} {text : List Char}

theorem mem_one : text ∈ one condition ↔ ∃ char, condition char ∧ text = [char] :=
  Iff.rfl

theorem mem_exactly : text ∈ exactly char ↔ text = [char] := by
  rw [exactly, mem_one]
  exact exists_eq_left

theorem mem_one_mul :
    text ∈ one condition * language ↔
      ∃ char rest, text = char :: rest ∧ condition char ∧ rest ∈ language := by
  rw [Language.mem_mul]
  constructor
  · rintro ⟨_, ⟨char, holds, rfl⟩, rest, member, rfl⟩
    exact ⟨char, rest, rfl, holds, member⟩
  · rintro ⟨char, rest, rfl, holds, member⟩
    exact ⟨[char], ⟨char, holds, rfl⟩, rest, member, rfl⟩

theorem cons_mem_one_mul :
    char :: text ∈ one condition * language ↔ condition char ∧ text ∈ language := by
  rw [mem_one_mul]
  constructor
  · rintro ⟨_, _, same, holds, member⟩
    cases same
    exact ⟨holds, member⟩
  · exact fun both => ⟨char, text, rfl, both⟩

theorem mem_exactly_mul :
    text ∈ exactly char * language ↔ ∃ rest, text = char :: rest ∧ rest ∈ language := by
  rw [exactly, mem_one_mul]
  constructor
  · rintro ⟨_, rest, rfl, rfl, member⟩
    exact ⟨rest, rfl, member⟩
  · rintro ⟨rest, rfl, member⟩
    exact ⟨char, rest, rfl, rfl, member⟩

/-- Repeated texts are none, or one and then repeated texts. -/
theorem mem_star_iff : text ∈ language∗ ↔ text = [] ∨ text ∈ language * language∗ := by
  conv_lhs => rw [← Language.one_add_self_mul_kstar_eq_kstar language]
  rw [Language.mem_add, Language.mem_one]

theorem mem_one_star : text ∈ (one condition)∗ ↔ ∀ char ∈ text, condition char := by
  induction text with
  | nil => exact ⟨nofun, fun _ => Language.nil_mem_kstar _⟩
  | cons head tail induction =>
      rw [mem_star_iff, cons_mem_one_mul, induction, List.forall_mem_cons]
      exact or_iff_right (List.cons_ne_nil head tail)

theorem mem_many_one : text ∈ many (one condition) ↔
    text ≠ [] ∧ ∀ char ∈ text, condition char := by
  rw [many, mem_one_mul]
  constructor
  · rintro ⟨char, rest, rfl, holds, others⟩
    exact ⟨List.cons_ne_nil char rest, List.forall_mem_cons.mpr ⟨holds, mem_one_star.mp others⟩⟩
  · rintro ⟨filled, all⟩
    rcases List.exists_cons_of_ne_nil filled with ⟨char, rest, rfl⟩
    rcases List.forall_mem_cons.mp all with ⟨holds, others⟩
    exact ⟨char, rest, rfl, holds, mem_one_star.mpr others⟩

theorem mem_sign_mul :
    text ∈ sign * language ↔ text ∈ language ∨ ∃ rest, text = '-' :: rest ∧ rest ∈ language := by
  rw [sign, add_mul, one_mul, Language.mem_add, mem_exactly_mul]

/-- What an integer is without its sign. -/
theorem mem_many_digit : text ∈ many digit ↔ text ≠ [] ∧ ∀ char ∈ text, isDigit char :=
  mem_many_one

/-- Digits on both sides of a point, of which those on one side may be missing. -/
def pointed : Language Char :=
  many digit * (exactly '.' * digit∗) + exactly '.' * many digit

theorem decimal_eq : decimal = sign * pointed := by
  rw [decimal, pointed, mul_add, mul_assoc, mul_assoc, mul_assoc]

theorem mem_pointed : text ∈ pointed ↔ ∃ whole fraction, text = whole ++ '.' :: fraction ∧
    (∀ char ∈ whole, isDigit char) ∧ (∀ char ∈ fraction, isDigit char) ∧
    (whole ≠ [] ∨ fraction ≠ []) := by
  rw [pointed, Language.mem_add, Language.mem_mul, mem_exactly_mul]
  constructor
  · rintro (⟨whole, digits, _, point, rfl⟩ | ⟨fraction, rfl, digits⟩)
    · rcases mem_many_digit.mp digits with ⟨filled, areDigits⟩
      rcases mem_exactly_mul.mp point with ⟨fraction, rfl, others⟩
      exact ⟨whole, fraction, rfl, areDigits, mem_one_star.mp others, .inl filled⟩
    · rcases mem_many_digit.mp digits with ⟨filled, areDigits⟩
      exact ⟨[], fraction, rfl, nofun, areDigits, .inr filled⟩
  · rintro ⟨whole, fraction, rfl, areDigits, others, filled⟩
    by_cases empty : whole = []
    · subst empty
      rw [ne_eq, eq_self, not_true, false_or] at filled
      exact .inr ⟨fraction, rfl, mem_many_digit.mpr ⟨filled, others⟩⟩
    · exact .inl ⟨whole, mem_many_digit.mpr ⟨empty, areDigits⟩, _,
        mem_exactly_mul.mpr ⟨fraction, rfl, mem_one_star.mpr others⟩, rfl⟩

theorem cons_mem_name : char :: text ∈ name ↔
    isLetter char ∧ ∀ other ∈ text, isWordChar other := by
  rw [name, cons_mem_one_mul, mem_one_star]

/-- What stands in quotes is nothing, or a character or an escape and the rest. -/
theorem mem_content_iff {quote : Char} : text ∈ content quote ↔ text = [] ∨
    (∃ char rest, text = char :: rest ∧ (char ≠ quote ∧ char ≠ '\\') ∧ rest ∈ content quote) ∨
      ∃ char rest, text = '\\' :: char :: rest ∧ char ≠ '\n' ∧ rest ∈ content quote := by
  conv_lhs => rw [content, mem_star_iff, ← content, add_mul, Language.mem_add, mem_one_mul,
    mul_assoc, mem_exactly_mul]
  refine or_congr_right (or_congr_right ⟨?_, ?_⟩)
  · rintro ⟨_, rfl, member⟩
    rcases mem_one_mul.mp member with ⟨char, rest, rfl, inLine, inside⟩
    exact ⟨char, rest, rfl, inLine, inside⟩
  · rintro ⟨char, rest, rfl, inLine, inside⟩
    exact ⟨_, rfl, mem_one_mul.mpr ⟨char, rest, rfl, inLine, inside⟩⟩

theorem mem_content_cons {quote : Char} (plain : char ≠ '\\') :
    char :: text ∈ content quote ↔ char ≠ quote ∧ text ∈ content quote := by
  rw [mem_content_iff]
  constructor
  · rintro (empty | ⟨_, _, same, other, inside⟩ | ⟨_, _, same, _⟩)
    · cases empty
    · cases same
      exact ⟨other.1, inside⟩
    · cases same
      exact absurd rfl plain
  · exact fun ⟨other, inside⟩ => .inr (.inl ⟨char, text, rfl, ⟨other, plain⟩, inside⟩)

theorem mem_content_escape {quote : Char} :
    '\\' :: char :: text ∈ content quote ↔ char ≠ '\n' ∧ text ∈ content quote := by
  rw [mem_content_iff]
  constructor
  · rintro (empty | ⟨_, _, same, other, _⟩ | ⟨_, _, same, inLine, inside⟩)
    · cases empty
    · cases same
      exact absurd rfl other.2
    · cases same
      exact ⟨inLine, inside⟩
  · exact fun ⟨inLine, inside⟩ => .inr (.inr ⟨char, text, rfl, inLine, inside⟩)

theorem backslash_not_mem_content {quote : Char} : ['\\'] ∉ content quote := by
  rw [mem_content_iff]
  rintro (empty | ⟨_, _, same, other, _⟩ | ⟨_, _, same, _⟩)
  · cases empty
  · cases same
    exact other.2 rfl
  · cases same

theorem mem_quoted {quote : Char} :
    text ∈ quoted quote ↔ ∃ body ∈ content quote, text = quote :: (body ++ [quote]) := by
  rw [quoted, mul_assoc, mem_exactly_mul]
  constructor
  · rintro ⟨_, rfl, member⟩
    rcases Language.mem_mul.mp member with ⟨body, inside, _, last, rfl⟩
    rw [mem_exactly.mp last]
    exact ⟨body, inside, rfl⟩
  · rintro ⟨body, inside, rfl⟩
    exact ⟨_, rfl, Language.append_mem_mul inside (mem_exactly.mpr rfl)⟩

end Pattern

end NodeAssembly
