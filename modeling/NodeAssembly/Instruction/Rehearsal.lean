import NodeAssembly.Instruction.Execute
import NodeAssembly.Program.Basic

/-! Rehearsing a program: each entry is executed once, in order, on a machine
that only notes what it is asked to do beside the registers. Jumps are not
followed, and faults do not end the rehearsal. -/

namespace NodeAssembly

/-- What the machine was asked to do. -/
inductive MachineCall where
  | jump (label : String)
  | stop
  | sleep (ticks : Int32)
deriving DecidableEq

/-- The machine: calls are kept with the latest first. -/
structure Rehearsal where
  site : Site
  running : Bool
  calls : List MachineCall

namespace Rehearsal

def note (rehearsal : Rehearsal) (call : MachineCall) : Rehearsal :=
  { rehearsal with calls := call :: rehearsal.calls }

def withSite {α : Type} (rehearsal : Rehearsal) (answer : α × Site) : α × Rehearsal :=
  (answer.1, { rehearsal with site := answer.2 })

def answer (request : Request) (rehearsal : Rehearsal) : request.Answer × Rehearsal :=
  match request with
  | .read register => rehearsal.withSite (rehearsal.site.readAlone register)
  | .write register value => rehearsal.withSite (rehearsal.site.writeAlone register value)
  | .observe register => rehearsal.withSite (rehearsal.site.observeAlone register)
  | .jump label => (.ok (), rehearsal.note (.jump label))
  | .stop => ((), { rehearsal.note .stop with running := false })
  | .running => (rehearsal.running, rehearsal)
  | .sleep ticks => ((), rehearsal.note (.sleep ticks))

end Rehearsal

/-- What came of one entry, and what the accumulator and the watched registers
read afterwards. -/
structure RehearsedEntry where
  opcode : OpCode
  result : Except Fault Unit
  calls : List MachineCall
  accumulator : Except Fault Value
  watched : List (Option (Except Fault Value))

namespace Program

/-- Reads registers by name, one after the other. -/
def readWatched (table : RegisterTable) :
    List String → Site → List (Option (Except Fault Value)) × Site
  | [], site => ([], site)
  | name :: rest, site =>
    let (value, site) :=
      match table.find? name with
      | some register =>
        let (value, site) := site.readAlone register
        (some value, site)
      | none => (none, site)
    let (values, site) := readWatched table rest site
    (value :: values, site)

def rehearseEntry (table : RegisterTable) (watch : List String) (entry : Entry) (site : Site) :
    RehearsedEntry × Site :=
  let script := (entry.instruction.execute table.accumulator).run
  let (result, rehearsal) := script.runWith Rehearsal.answer ⟨site, true, []⟩
  let (accumulator, site) := rehearsal.site.readAlone table.accumulator
  let (watched, site) := readWatched table watch site
  (⟨entry.instruction.opcode, result, rehearsal.calls.reverse, accumulator, watched⟩, site)

def rehearseEntries (table : RegisterTable) (watch : List String) :
    List Entry → Site → List RehearsedEntry × Site
  | [], site => ([], site)
  | entry :: rest, site =>
    let (first, site) := rehearseEntry table watch entry site
    let (others, site) := rehearseEntries table watch rest site
    (first :: others, site)

/-- Executes every entry of a program once. -/
def rehearse (program : Program) (watch : List String) (site : Site) :
    List RehearsedEntry × Site :=
  rehearseEntries program.table watch program.entries.toList site

end Program

end NodeAssembly
