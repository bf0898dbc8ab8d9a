import Mathlib.Data.List.Basic
import NodeAssembly.Proofs.Text.Quoted
import NodeAssembly.Source.Line

/-! Lines that are read as they were written. Nothing in them starts a comment
or ends the line, and they neither start nor end with a blank. -/

namespace NodeAssembly.Text

/-- Lines with a line feed after each of them. -/
def unlines (lines : List (List Char)) : List Char :=
  lines.flatMap (· ++ ['\n'])

structure Tidy (text : List Char) : Prop where
  /-- Quotes are closed, and there is no comment mark outside of them. -/
  quiet : ∀ rest, stripCommentFrom .outside (text ++ rest) =
    text ++ stripCommentFrom .outside rest
  unbroken : ∀ char ∈ text, char ≠ '\n' ∧ char ≠ '\r'
  starts : ∀ char ∈ text.head?, isBlank char = false
  ends : ∀ char ∈ text.getLast?, isBlank char = false
  filled : text ≠ []

/-- A character that means nothing special in a line. -/
def isSolid (char : Char) : Bool :=
  !isBlank char && !isCommentMark char && char != '"' && char != '\''

theorem head?_append_of_filled {first : List Char} (filled : first ≠ []) (second : List Char) :
    (first ++ second).head? = first.head? := by
  cases first with
  | nil => exact absurd rfl filled
  | cons head tail => rfl

theorem dropWhile_blanks {blanks rest : List Char} (blank : ∀ char ∈ blanks, isBlank char)
    (starts : ∀ char ∈ rest.head?, isBlank char = false) :
    (blanks ++ rest).dropWhile isBlank = rest := by
  rw [List.dropWhile_append_of_pos blank]
  cases rest with
  | nil => rfl
  | cons head tail =>
      rw [List.dropWhile_cons_of_neg]
      simp [starts head rfl]

/-- Trimming takes the blanks off that stand around a text. -/
theorem trim_surrounded {before text after : List Char}
    (blankBefore : ∀ char ∈ before, isBlank char) (blankAfter : ∀ char ∈ after, isBlank char)
    (starts : ∀ char ∈ text.head?, isBlank char = false)
    (ends : ∀ char ∈ text.getLast?, isBlank char = false) (filled : text ≠ []) :
    trim (before ++ text ++ after) = text := by
  have start : trimStart (before ++ text ++ after) = text ++ after := by
    rw [trimStart, List.append_assoc]
    apply dropWhile_blanks blankBefore
    rwa [head?_append_of_filled filled]
  rw [trim, start, trimEnd, List.reverse_append, dropWhile_blanks, List.reverse_reverse]
  · exact fun char member => blankAfter char (List.mem_reverse.mp member)
  · rwa [List.head?_reverse]

theorem trim_eq_self {text : List Char} (starts : ∀ char ∈ text.head?, isBlank char = false)
    (ends : ∀ char ∈ text.getLast?, isBlank char = false) : trim text = text := by
  by_cases filled : text = []
  · rw [filled]
    rfl
  · have trimmed : trim ([] ++ text ++ []) = text :=
      trim_surrounded nofun nofun starts ends filled
    rwa [List.nil_append, List.append_nil] at trimmed

theorem trim_isPrefix (text : List Char) : trim text <+: trimStart text := by
  rw [trim, trimEnd, ← List.reverse_suffix, List.reverse_reverse]
  exact List.dropWhile_suffix isBlank

theorem head?_dropWhile {char : Char} {text : List Char}
    (starts : char ∈ (text.dropWhile isBlank).head?) : isBlank char = false := by
  have stops := List.head?_dropWhile_not isBlank text
  rwa [Option.mem_def.mp starts] at stops

theorem head?_trim (text : List Char) : ∀ char ∈ (trim text).head?, isBlank char = false := by
  intro char starts
  rcases trim_isPrefix text with ⟨blanks, split⟩
  have first : char ∈ (trimStart text).head? := by
    rw [← split, List.head?_append, Option.mem_def.mp starts]
    rfl
  exact head?_dropWhile first

theorem getLast?_trim (text : List Char) : ∀ char ∈ (trim text).getLast?, isBlank char = false := by
  intro char ends
  rw [trim, trimEnd, List.getLast?_reverse] at ends
  exact head?_dropWhile ends

theorem trim_trim (text : List Char) : trim (trim text) = trim text :=
  trim_eq_self (head?_trim text) (getLast?_trim text)

namespace Tidy

variable {text first second : List Char}

theorem of_solid (filled : text ≠ []) (solid : ∀ char ∈ text, isSolid char) : Tidy text where
  quiet := by
    clear filled
    intro rest
    induction text with
    | nil => rfl
    | cons head tail induction =>
        have here := solid head List.mem_cons_self
        simp only [isSolid, Bool.and_eq_true, Bool.not_eq_true', bne_iff_ne] at here
        have further := induction fun char member => solid char (List.mem_cons_of_mem head member)
        simp [stripCommentFrom, Quotation.after, here, further]
  unbroken := by
    intro char member
    have here := solid char member
    constructor
    · rintro rfl
      exact absurd here (by decide)
    · rintro rfl
      exact absurd here (by decide)
  starts := by
    intro char member
    have here := solid char (List.mem_of_mem_head? member)
    simp only [isSolid, Bool.and_eq_true, Bool.not_eq_true'] at here
    exact here.1.1.1
  ends := by
    intro char member
    have here := solid char (List.mem_of_mem_getLast? member)
    simp only [isSolid, Bool.and_eq_true, Bool.not_eq_true'] at here
    exact here.1.1.1
  filled := filled

theorem of_char {char : Char} (solid : isSolid char) : Tidy [char] := by
  apply of_solid (List.cons_ne_nil _ _)
  intro other member
  rw [List.mem_singleton.mp member]
  exact solid

theorem append (left : Tidy first) (right : Tidy second) : Tidy (first ++ second) where
  quiet := by
    intro rest
    rw [List.append_assoc, left.quiet, right.quiet, List.append_assoc]
  unbroken := by
    intro char member
    rcases List.mem_append.mp member with inFirst | inSecond
    · exact left.unbroken char inFirst
    · exact right.unbroken char inSecond
  starts := by
    intro char member
    exact left.starts char (head?_append_of_filled left.filled _ ▸ member)
  ends := by
    intro char member
    rw [List.getLast?_append_of_ne_nil _ right.filled] at member
    exact right.ends char member
  filled := List.append_ne_nil_of_left_ne_nil left.filled second

/-- Two tidy texts with a blank between them. -/
theorem spaced (left : Tidy first) (right : Tidy second) : Tidy (first ++ ' ' :: second) where
  quiet := by
    intro rest
    have blank : stripCommentFrom .outside (' ' :: (second ++ rest)) =
        ' ' :: stripCommentFrom .outside (second ++ rest) := rfl
    rw [List.append_assoc, left.quiet, List.cons_append, blank, right.quiet, List.append_assoc,
      List.cons_append]
  unbroken := by
    intro char member
    rcases List.mem_append.mp member with inFirst | inRest
    · exact left.unbroken char inFirst
    · rcases List.mem_cons.mp inRest with rfl | inSecond
      · decide
      · exact right.unbroken char inSecond
  starts := by
    intro char member
    exact left.starts char (head?_append_of_filled left.filled _ ▸ member)
  ends := by
    intro char member
    rw [List.getLast?_append_of_ne_nil _ (List.cons_ne_nil _ _),
      List.getLast?_cons_of_ne_nil right.filled] at member
    exact right.ends char member
  filled := List.append_ne_nil_of_left_ne_nil left.filled _

theorem intercalate {texts : List (List Char)} (tidy : ∀ text ∈ texts, Tidy text)
    (filled : texts ≠ []) : Tidy ([' '].intercalate texts) := by
  induction texts with
  | nil => exact absurd rfl filled
  | cons head tail induction =>
      cases tail with
      | nil =>
          rw [List.intercalate_singleton]
          exact tidy head List.mem_cons_self
      | cons next rest =>
          rw [List.intercalate_cons_cons, List.append_assoc, List.singleton_append]
          apply (tidy head List.mem_cons_self).spaced
          exact induction (fun text member => tidy text (List.mem_cons_of_mem head member))
            (List.cons_ne_nil _ _)

theorem trim_eq (tidy : Tidy text) : trim text = text :=
  trim_eq_self tidy.starts tidy.ends

theorem stripComment_eq (tidy : Tidy text) : stripComment text = text := by
  have quiet := tidy.quiet []
  rw [List.append_nil] at quiet
  rw [stripComment, quiet, stripCommentFrom, List.append_nil]

theorem ofRaw_eq (tidy : Tidy text) (number : Nat) : Line.ofRaw number text = ⟨number, text, text⟩ := by
  rw [Line.ofRaw, tidy.stripComment_eq, tidy.trim_eq]

theorem trimStart_spaced (tidy : Tidy text) : trimStart (' ' :: text) = text := by
  have starts := tidy.starts
  have blank : isBlank ' ' := by decide
  rw [trimStart, List.dropWhile_cons_of_pos blank]
  cases text with
  | nil => rfl
  | cons head tail =>
      rw [List.dropWhile_cons_of_neg]
      simp [starts head rfl]

end Tidy

/-! ## Quoted text -/

theorem stripComment_escape {text : List Char} (typable : ∀ char ∈ text, isTypable char)
    (rest : List Char) :
    stripCommentFrom (.inside '"') (text.flatMap escape ++ rest) =
      text.flatMap escape ++ stripCommentFrom (.inside '"') rest := by
  induction text with
  | nil => rfl
  | cons head tail induction =>
      have further := induction fun char member => typable char (List.mem_cons_of_mem head member)
      rw [List.flatMap_cons, List.append_assoc, List.append_assoc]
      generalize escaped : escape head = shown
      have cases := escape_escaped (typable head List.mem_cons_self)
      rw [escaped] at cases
      cases cases with
      | same noQuote noBackslash inLine noReturn =>
          simp [stripCommentFrom, Quotation.after, noQuote, noBackslash, further]
      | short code stands coded => simp [stripCommentFrom, Quotation.after, further]

theorem unbroken_escape {char shown : Char} (typable : isTypable char) (member : shown ∈ escape char) :
    shown ≠ '\n' ∧ shown ≠ '\r' := by
  have cases := escape_escaped typable
  generalize escape char = escaped at cases member
  cases cases with
  | same noQuote noBackslash inLine noReturn =>
      cases List.mem_singleton.mp member
      exact ⟨inLine, noReturn⟩
  | short code stands coded =>
      rcases List.mem_cons.mp member with rfl | isCode
      · decide
      · cases List.mem_singleton.mp isCode
        constructor
        · rintro rfl
          simp at coded
        · rintro rfl
          simp at coded

theorem tidy_quote {text : List Char} (typable : ∀ char ∈ text, isTypable char) :
    Tidy (quote text) where
  quiet := by
    intro rest
    have opens : ∀ rest, stripCommentFrom .outside ('"' :: rest) =
        '"' :: stripCommentFrom (.inside '"') rest := fun _ => rfl
    have closes : ∀ rest, stripCommentFrom (.inside '"') ('"' :: rest) =
        '"' :: stripCommentFrom .outside rest := fun _ => rfl
    rw [quote, List.append_assoc, List.cons_append, opens, stripComment_escape typable,
      List.singleton_append, closes]
    simp
  unbroken := by
    intro char member
    simp only [quote, List.mem_append, List.mem_cons, List.mem_flatMap, List.not_mem_nil,
      or_false] at member
    rcases member with (rfl | ⟨written, inText, shown⟩) | rfl
    · decide
    · exact unbroken_escape (typable written inText) shown
    · decide
  starts := by
    intro char member
    cases member
    decide
  ends := by
    intro char member
    rw [quote, List.getLast?_append_of_ne_nil _ (List.cons_ne_nil _ _)] at member
    cases member
    decide
  filled := List.cons_ne_nil _ _

/-! ## Lines -/

theorem linesFrom_append {line : List Char} (unbroken : '\n' ∉ line) (before rest : List Char)
    (ends : (before.reverse ++ line).getLast? ≠ some '\r') :
    linesFrom before (line ++ '\n' :: rest) = (before.reverse ++ line) :: lines rest := by
  induction line generalizing before with
  | nil =>
      have kept : dropReturn before.reverse = before.reverse := by
        rw [dropReturn, List.reverse_reverse]
        split
        next => simp at ends
        next => rfl
      rw [List.nil_append, linesFrom, kept, List.append_nil]
      rfl
  | cons head tail induction =>
      have shifted : (head :: before).reverse ++ tail = before.reverse ++ head :: tail := by simp
      have further := induction (fun inside => unbroken (List.mem_cons_of_mem head inside))
        (head :: before) (shifted ▸ ends)
      rw [List.cons_append, linesFrom, further, shifted]
      rintro rfl
      exact unbroken List.mem_cons_self

theorem lines_unlines_of_ends {texts : List (List Char)} (unbroken : ∀ text ∈ texts, '\n' ∉ text)
    (ends : ∀ text ∈ texts, text.getLast? ≠ some '\r') : lines (unlines texts) = texts := by
  induction texts with
  | nil => rfl
  | cons head tail induction =>
      have further := induction (fun text member => unbroken text (List.mem_cons_of_mem head member))
        fun text member => ends text (List.mem_cons_of_mem head member)
      have first := linesFrom_append (unbroken head List.mem_cons_self) [] (unlines tail)
        (ends head List.mem_cons_self)
      rw [unlines, List.flatMap_cons, List.append_assoc, List.singleton_append, lines]
      rw [← unlines, first, further]
      rfl

theorem lines_unlines {texts : List (List Char)} (tidy : ∀ text ∈ texts, Tidy text) :
    lines (unlines texts) = texts := by
  apply lines_unlines_of_ends
  · intro text member inside
    exact ((tidy text member).unbroken _ inside).1 rfl
  · intro text member ends
    exact ((tidy text member).unbroken _ (List.mem_of_getLast? ends)).2 rfl

/-- The lines of a text hold no line feed. -/
theorem unbroken_linesFrom {before : List Char} (unbroken : '\n' ∉ before) (text : List Char) :
    ∀ line ∈ linesFrom before text, '\n' ∉ line := by
  fun_induction linesFrom before text with
  | case1 before empty => nofun
  | case2 before filled => simpa using unbroken
  | case3 before rest induction =>
      refine List.forall_mem_cons.mpr ⟨fun inside => unbroken ?_, induction nofun⟩
      unfold dropReturn at inside
      split at inside
      next earlier isReturn =>
        rw [List.reverse_reverse] at isReturn
        rw [isReturn]
        exact List.mem_cons_of_mem _ (List.mem_reverse.mp inside)
      next => exact List.mem_reverse.mp inside
  | case4 before char rest noBreak induction =>
      refine induction fun inside => ?_
      rcases List.mem_cons.mp inside with rfl | earlier
      · exact noBreak rfl
      · exact unbroken earlier

end NodeAssembly.Text
