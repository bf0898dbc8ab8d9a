import NodeAssembly.Instruction.Script

/-! Terms between a script and the machine that runs it: what the script may ask
for as long as it is answered within the terms. Terms say nothing about one
machine, so what is shown of the script of an instruction holds for every way
of running it. -/

namespace NodeAssembly

/-- What a script may ask for, and the values and faults that it may be
answered with. -/
structure Terms where
  asks : Request → Prop
  values : Value → Prop
  faults : Fault → Prop

namespace Terms

/-- An answer or a fault within the terms. -/
def Grants {α : Type} (terms : Terms) (holds : α → Prop) : Except Fault α → Prop
  | .ok result => holds result
  | .error fault => terms.faults fault

/-- The answers that a script has to reckon with. -/
def Admits (terms : Terms) : (request : Request) → request.Answer → Prop
  | .read _ => terms.Grants terms.values
  | .write _ _ => terms.Grants fun _ => True
  | .observe _ => terms.Grants fun _ => True
  | .jump _ => terms.Grants fun _ => True
  | .stop => fun _ => True
  | .running => fun _ => True
  | .sleep _ => fun _ => True

/-- Every request may be asked, and every answer be given. -/
def anything : Terms :=
  ⟨fun _ => True, fun _ => True, fun _ => True⟩

theorem anything_admits (request : Request) (answer : request.Answer) :
    anything.Admits request answer := by
  cases request <;> first | trivial | cases answer <;> trivial

end Terms

namespace Script

/-- The script asks only for what the terms allow and ends as `ends` says, as
long as all answers are within the terms. -/
def Keeps {α : Type} (terms : Terms) (ends : α → Prop) : Script α → Prop
  | .done result => ends result
  | .ask request resume =>
    terms.asks request ∧ ∀ answer, terms.Admits request answer → (resume answer).Keeps terms ends

variable {α β : Type} {terms : Terms}

theorem Keeps.imp {first second : α → Prop} {script : Script α} (keeps : script.Keeps terms first)
    (weaker : ∀ result, first result → second result) : script.Keeps terms second := by
  induction script with
  | done result => exact weaker result keeps
  | ask request resume induction =>
      exact ⟨keeps.1, fun answer admitted => induction answer (keeps.2 answer admitted)⟩

theorem Keeps.bind {first : α → Prop} {second : β → Prop} {script : Script α}
    {next : α → Script β} (keeps : script.Keeps terms first)
    (after : ∀ result, first result → (next result).Keeps terms second) :
    (script.bind next).Keeps terms second := by
  induction script with
  | done result => exact after result keeps
  | ask request resume induction =>
      exact ⟨keeps.1, fun answer admitted => induction answer (keeps.2 answer admitted)⟩

theorem keeps_anything (script : Script α) : script.Keeps .anything fun _ => True := by
  induction script with
  | done result => trivial
  | ask request resume induction => exact ⟨trivial, fun answer _ => induction answer⟩

theorem keeps_request {request : Request} (asked : terms.asks request) :
    (Script.request request).Keeps terms (terms.Admits request) :=
  ⟨asked, fun _ admitted => admitted⟩

end Script

namespace Action

variable {α β : Type} {terms : Terms}

/-- The same for a script that may end with a fault. -/
def Keeps (terms : Terms) (ends : α → Prop) (action : Action α) : Prop :=
  Script.Keeps terms (terms.Grants ends) action.run

theorem keeps_pure {ends : α → Prop} {result : α} (holds : ends result) :
    Keeps terms ends (pure result) :=
  holds

theorem Keeps.bind {first : α → Prop} {second : β → Prop} {action : Action α}
    {next : α → Action β} (keeps : action.Keeps terms first)
    (after : ∀ result, first result → (next result).Keeps terms second) :
    Keeps terms second (action >>= next) := by
  apply Script.Keeps.bind keeps
  intro outcome granted
  cases outcome with
  | ok result => exact after result granted
  | error fault => exact granted

theorem keeps_lift {ends : α → Prop} {script : Script α} (keeps : script.Keeps terms ends) :
    Keeps terms ends (ExceptT.lift script) :=
  Script.Keeps.bind keeps fun _ holds => holds

theorem keeps_liftM {ends : α → Prop} {outcome : Except Fault α}
    (granted : terms.Grants ends outcome) : Keeps terms ends (liftM outcome) :=
  granted

theorem keeps_read {register : RegisterRef} (asked : terms.asks (.read register)) :
    (read register).Keeps terms terms.values :=
  Script.keeps_request asked

theorem keeps_write {register : RegisterRef} {value : Value}
    (asked : terms.asks (.write register value)) :
    (write register value).Keeps terms fun _ => True :=
  Script.keeps_request asked

theorem keeps_observe {register : RegisterRef} (asked : terms.asks (.observe register)) :
    (observe register).Keeps terms fun _ => True :=
  Script.keeps_request asked

theorem keeps_jump {label : String} (asked : terms.asks (.jump label)) :
    (jump label).Keeps terms fun _ => True :=
  Script.keeps_request asked

theorem keeps_stop (asked : terms.asks .stop) : stop.Keeps terms fun _ => True :=
  keeps_lift (Script.keeps_request asked)

theorem keeps_running (asked : terms.asks .running) : running.Keeps terms fun _ => True :=
  keeps_lift (Script.keeps_request asked)

theorem keeps_sleep {ticks : Int32} (asked : terms.asks (.sleep ticks)) :
    (sleep ticks).Keeps terms fun _ => True :=
  keeps_lift (Script.keeps_request asked)

end Action

end NodeAssembly
