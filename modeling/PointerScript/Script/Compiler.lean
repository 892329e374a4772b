import PointerScript.Log
import PointerScript.Script.Standard
import PointerScript.Text.Line

/-! From source text to a program.

A line loses its comment and its layout and is then built by the command it starts with. When all
lines are built, the jumps are linked to their labels. -/

namespace PointerScript

/-- A line without its comment, with single spaces between its words. -/
def plainLine (line : List Char) : List Char :=
  Text.trim (Text.collapse (Text.trim (line.takeWhile (· != ';'))))

/-- A program in the making: the instructions and the labels so far. -/
structure Assembly where
  instructions : Array Instruction := #[]
  labels : Labels := []
  deriving DecidableEq, Inhabited

inductive CompileFault where
  | unknownCommand (word : String)
  | refused (message : String) (details : List Value)
  | failed (word : String) (reason : String)
  | undefinedLabel (name : LabelName)
  deriving DecidableEq

namespace CompileFault

def message : CompileFault → String
  | unknownCommand word => "Unkwown command: \"" ++ word ++ "\""
  | refused message _ => message
  | failed word reason => "Failed to build command \"" ++ word ++ "\", raised error: " ++ reason
  | undefinedLabel name => "Undefined label \"" ++ name.plain ++ "\""

def pieces : CompileFault → List Value
  | refused message details => .text message :: details
  | fault => [.text fault.message]

end CompileFault

def wordAndArgs (line : List Char) : String × String :=
  match Text.breakAt? [' '] line with
  | some (word, args) => (String.ofList word, String.ofList args)
  | none => (String.ofList line, "")

def findCommand? (commands : List Command) (word : String) : Option Command :=
  commands.find? fun c => c.word = word

namespace Assembly

def built (commands : List Command) (a : Assembly) (line : List Char) : Except CompileFault Built :=
  let (word, args) := wordAndArgs line
  match findCommand? commands word with
  | none => .error (.unknownCommand word)
  | some command =>
    match command.run a.instructions.size a.labels args with
    | .ok built => .ok built
    | .error (.refused message details) => .error (.refused message details)
    | .error fault => .error (.failed word fault.message)

/-- Takes in what a line has built. A label names the place of the next instruction. -/
def add (a : Assembly) : Built → Assembly
  | .instruction inst => { a with instructions := a.instructions.push inst }
  | .label name => { a with labels := a.labels ++ [(name, a.instructions.size)] }
  | .nothing => a

/-- Builds lines one after another; empty ones add nothing. Gives the program as far as it got, and
the first fault with the number of its line, counted from 0. -/
def build (commands : List Command) (a : Assembly) (number : Nat) :
    List (List Char) → Assembly × Option (Nat × CompileFault)
  | [] => (a, none)
  | raw :: rest =>
    match plainLine raw with
    | [] => build commands a (number + 1) rest
    | line =>
      match a.built commands line with
      | .ok built => build commands (a.add built) (number + 1) rest
      | .error fault => (a, some (number, fault))

end Assembly

namespace Instruction

def label? : Instruction → Option LabelName
  | jump _ _ label => some label
  | call _ _ label => some label
  | _ => none

def withTarget (target : Int) : Instruction → Instruction
  | jump count _ label => jump count target label
  | call count _ label => call count target label
  | inst => inst

end Instruction

namespace Labels

def find? (labels : Labels) : LabelName → Option Nat
  | .named name => labels.lookup name
  | .unnamed => none

/-- The labels in the order of their places; those of one place are in the order of their names. -/
def sorted (labels : Labels) : Labels :=
  labels.mergeSort fun a b => a.2 < b.2 || (a.2 == b.2 && a.1 ≤ b.1)

end Labels

/-- Gives the jumps their targets, up to the first whose label is not defined. -/
def linkFrom (labels : Labels) : List Instruction → List Instruction × Option LabelName
  | [] => ([], none)
  | inst :: rest =>
    match inst.label? with
    | none =>
      let (linked, undefined) := linkFrom labels rest
      (inst :: linked, undefined)
    | some name =>
      match Labels.find? labels name with
      | none => (inst :: rest, some name)
      | some target =>
        let (linked, undefined) := linkFrom labels rest
        (inst.withTarget target :: linked, undefined)

/-- What the last pass over a program comes to. A refusal names a line, counted from 0. -/
inductive PassResult where
  | program (instructions : List Instruction)
  | refused (line : Int) (message : String)
  | crashed (message : String)
  deriving DecidableEq

/-- The last pass over a program, when all its lines are built: gives the instructions as it leaves
them in their places, and what it comes to. -/
abbrev Pass := Labels → List Instruction → List Instruction × PassResult

/-- Links the jumps. A label that is not defined belongs to no line. -/
def linkPass : Pass := fun labels program =>
  match linkFrom labels program with
  | (linked, none) => (linked, .program linked)
  | (linked, some name) => (linked, .refused (-1) (CompileFault.undefinedLabel name).message)

inductive Compiled where
  | program (instructions : Array Instruction)
  | failed
  | crashed (message : String)
  deriving DecidableEq

/-- A compiler: its commands, the instructions at the start of every program, the last pass, the
program it made last, and the messages it left. -/
structure Compiler where
  commands : List Command := []
  initial : List Instruction := []
  pass : Option Pass := none
  assembly : Assembly := {}
  log : Log := #[]

namespace Compiler

def standard (safe : Bool) : Compiler where
  commands := Standard.commands
  initial := Standard.initial safe
  pass := some linkPass

/-- Adds a command; it takes the place of one with the same word. -/
def register (c : Compiler) (command : Command) : Compiler :=
  { c with commands := c.commands.filter (·.word ≠ command.word) ++ [command] }

def say (c : Compiler) (level : Level) (message : String) : Compiler :=
  { c with log := c.log.push ⟨"Compiler", level, message⟩ }

/-- Reports a fault with the number of its line, counted from 1. -/
def report (c : Compiler) (line : Int) (message : String) : Compiler :=
  c.say .critical ("(line " ++ toString line ++ ") " ++ message)

def compileLines (c : Compiler) (lines : List (List Char)) : Compiler × Bool :=
  let (assembly, fault) :=
    Assembly.build c.commands { instructions := c.initial.toArray } 0 lines
  let c := { c with assembly := assembly }
  match fault with
  | some (number, fault) => (c.report (number + 1) fault.message, false)
  | none =>
    (c.say .info
      ("Compilation successfull, created " ++ toString assembly.instructions.size ++ " instructions."),
      true)

/-- Takes over the instructions as a pass left them, also those at the start of later programs. -/
def withInstructions (c : Compiler) (left : List Instruction) : Compiler :=
  { c with
    assembly := { c.assembly with instructions := left.toArray }
    initial := left.take c.initial.length }

def runPass (c : Compiler) (pass : Pass) : Compiler × Compiled :=
  let (left, result) := pass c.assembly.labels c.assembly.instructions.toList
  let c := c.withInstructions left
  match result with
  | .program program => (c, .program program.toArray)
  | .refused line message => (c.report (line + 1) message, .failed)
  | .crashed message => (c, .crashed message)

def compile (c : Compiler) (source : String) : Compiler × Compiled :=
  match c.compileLines (Text.lines source.toList) with
  | (c, false) => (c, .failed)
  | (c, true) =>
    match c.pass with
    | none => (c, .program c.assembly.instructions)
    | some pass => (c.say .info "Performing post-processing pass.").runPass pass

end Compiler

/-- Compiles a source text with the standard compiler. -/
def compile (safe : Bool) (source : String) : Compiled × Log :=
  let (c, compiled) := (Compiler.standard safe).compile source
  (compiled, c.log)

end PointerScript
