import NodeAssembly.Node.Basic
import NodeAssembly.Program.Assembler

/-! A compiler makes nodes from source texts. All its nodes share one registry
of pins, so they can reach each other. -/

namespace NodeAssembly

open NodeAssembly.Text

structure Compiler where
  config : Config
  registry : PinRegistry
  /-- How many source texts were compiled, faulty ones included. -/
  compiled : Nat
  logger : Option Logger

namespace Compiler

def ofConfig (config : Config) (logger : Option Logger) : Compiler :=
  ⟨config, .empty, 0, logger⟩

/-- Parses a source text without making a node of it. -/
def parse (compiler : Compiler) (board : Board) (source : String) :
    Except ParseError (Program × RegisterFile) × Compiler × Board :=
  let parsed := Program.parse compiler.registry board compiler.config compiler.logger source
  (parsed.result, { compiler with registry := parsed.registry }, parsed.board)

/-- Makes a node of a source text. Its records, and those of parsing it, have
the number of the node. -/
def compile (compiler : Compiler) (board : Board) (source : String) :
    Except ParseError Node × Compiler × Board :=
  let logger := compiler.logger.map (·.within "node" (natural compiler.compiled))
  let parsed := Program.parse compiler.registry board compiler.config logger source
  let compiler := { compiler with registry := parsed.registry, compiled := compiler.compiled + 1 }
  (parsed.result.map fun (program, file) => .ofProgram program file logger, compiler, parsed.board)

end Compiler

/-- Makes a node with pins of its own and the default settings. -/
def Node.standalone (board : Board) (source : String) : Except ParseError Node × Board :=
  let (result, _, board) := (Compiler.ofConfig .default none).compile board source
  (result, board)

end NodeAssembly
