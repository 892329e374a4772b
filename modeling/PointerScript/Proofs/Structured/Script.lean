import Mathlib.Data.List.Chain
import Mathlib.Data.List.Flatten
import Mathlib.Data.List.Perm.Subperm
import Mathlib.Logic.Relation
import PointerScript.Script.Compiler

/-! Structured scripts: a main block and functions, whose blocks are made of commands, counted loops
and calls. Unrolling a script writes out the rounds of its loops and the bodies of its calls. -/

namespace PointerScript

/-- A block, given from its first line on. A loop has the text of its count and the number that the
text spells. -/
inductive Block where
  | done
  | command (line : String) (rest : Block)
  | loop (label count : String) (times : Nat) (body rest : Block)
  | call (name : String) (rest : Block)
  deriving DecidableEq

/-- The words of the commands that steer nothing. -/
def actionWords : List String :=
  ["move", "moverel", "click", "doubleclick", "wait", "print", "var", "printvar", "centermouse", "goback",
    "setoffset", "clearoffset"]

/-- A single line: without line ends. -/
def IsLine (line : String) : Prop :=
  ∀ c ∈ line.toList, Text.isLineEnd c = false

instance (line : String) : Decidable (IsLine line) :=
  List.decidableBAll _ _

/-- A line with a command that steers nothing. -/
def IsAction (line : String) : Prop :=
  IsLine line ∧ (wordAndArgs (plainLine line.toList)).1 ∈ actionWords

instance (line : String) : Decidable (IsAction line) :=
  inferInstanceAs (Decidable (_ ∧ _))

/-- A single word: not empty, without blanks and without the start of a comment. -/
def IsWord (s : String) : Prop :=
  s.toList ≠ [] ∧ ∀ c ∈ s.toList, Text.isBlank c = false ∧ c ≠ ';'

-- The search is over the characters of the word, not over all that there are.
instance (s : String) : Decidable (IsWord s) :=
  @instDecidableAnd _ _ _ (List.decidableBAll _ _)

/-- A text spells a whole number if the floating-point number it is read as is exactly that number. -/
def Spells (count : String) (times : Nat) : Prop :=
  ∃ x : Binary64, Operand.read count = .literal (.float x) ∧ x.quanta? = some ((times * Binary64.unit : Nat) : Int)

namespace Block

def lines : Block → List String
  | done => []
  | command line rest => line :: rest.lines
  | loop label count _ body rest =>
    ("label " ++ label) :: (body.lines ++ ("jump " ++ label ++ " " ++ count) :: rest.lines)
  | call name rest => ("call " ++ name) :: rest.lines

def labels : Block → List String
  | done => []
  | command _ rest => rest.labels
  | loop label _ _ body rest => label :: (body.labels ++ rest.labels)
  | call _ rest => rest.labels

def calls : Block → List String
  | done => []
  | command _ rest => rest.calls
  | loop _ _ _ body rest => body.calls ++ rest.calls
  | call name rest => name :: rest.calls

def commands : Block → List String
  | done => []
  | command line rest => line :: rest.commands
  | loop _ _ _ body rest => body.commands ++ rest.commands
  | call _ rest => rest.commands

/-- Whether the lines of a block are what they should be. -/
def Formed : Block → Prop
  | done => True
  | command line rest => IsAction line ∧ rest.Formed
  | loop label count times body rest =>
    (IsWord label ∧ IsWord count ∧ Spells count times ∧ 0 < times) ∧ body.Formed ∧ rest.Formed
  | call name rest => IsWord name ∧ rest.Formed

/-- The commands of a block in the order they are carried out: a loop is as many copies of its body as
its count says, a call is what it stands for. -/
def flat (inline : String → List String) : Block → List String
  | done => []
  | command line rest => line :: rest.flat inline
  | loop _ _ times body rest => (List.replicate times (body.flat inline)).flatten ++ rest.flat inline
  | call name rest => inline name ++ rest.flat inline

def ofCommands : List String → Block
  | [] => done
  | line :: rest => command line (ofCommands rest)

end Block

structure Script where
  main : Block
  functions : List (String × Block)

namespace Script

/-- The lines of a script: the main block up to the end, then the functions. -/
def lines (s : Script) : List String :=
  s.main.lines ++ "end" ::
    s.functions.flatMap fun f => ("label " ++ f.1) :: (f.2.lines ++ ["return"])

def source (s : Script) : String :=
  String.join (s.lines.map fun line => line ++ "\n")

def labels (s : Script) : List String :=
  s.main.labels ++ s.functions.flatMap fun f => f.1 :: f.2.labels

def blocks (s : Script) : List Block :=
  s.main :: s.functions.map Prod.snd

def Calls (s : Script) (f g : String) : Prop :=
  ∃ body, s.functions.lookup f = some body ∧ g ∈ body.calls

/-- Whether a script is structured: the labels are distinct single words, only functions are called,
none calls itself on any way, and calls are nested at most as deep as the machine allows. -/
structure Structured (s : Script) : Prop where
  formed : ∀ block ∈ s.blocks, block.Formed
  names : ∀ f ∈ s.functions, IsWord f.1
  distinct : s.labels.Nodup
  defined : ∀ block ∈ s.blocks, ∀ name ∈ block.calls, name ∈ s.functions.map Prod.fst
  acyclic : ∀ f, ¬ Relation.TransGen s.Calls f f
  nesting : ∀ f chain, f ∈ s.main.calls → List.IsChain s.Calls (f :: chain) → (f :: chain).length ≤ 4095

/-- The commands that a call stands for, with the calls in it down to some depth. -/
def inlined (s : Script) : Nat → String → List String
  | 0, _ => []
  | depth + 1, name =>
    match s.functions.lookup name with
    | some body => body.flat (s.inlined depth)
    | none => []

/-- A block with its loops and calls written out. Without cycles no calls are nested deeper than there
are functions. -/
def unroll (s : Script) (block : Block) : Block :=
  Block.ofCommands (block.flat (s.inlined s.functions.length))

/-- The script with all loops and calls written out. -/
def unrolled (s : Script) : Script where
  main := s.unroll s.main
  functions := s.functions.map fun f => (f.1, s.unroll f.2)

/-- The calls below a function are nested at most so deep, itself counted. -/
def Nests (s : Script) : Nat → String → Prop
  | 0, _ => False
  | depth + 1, f => ∃ body, s.functions.lookup f = some body ∧ ∀ g ∈ body.calls, s.Nests depth g

end Script

namespace Block

theorem Formed.isAction {block : Block} (h : block.Formed) : ∀ line ∈ block.commands, IsAction line := by
  induction block with
  | done => simp [commands]
  | command line rest ih => exact List.forall_mem_cons.mpr ⟨h.1, ih h.2⟩
  | loop label count times body rest ihb ihr =>
    exact List.forall_mem_append.mpr ⟨ihb h.2.1, ihr h.2.2⟩
  | call name rest ih => exact ih h.2

/-- What holds of all commands of a block and of those behind its calls holds of what it comes to. -/
theorem forall_mem_flat {P : String → Prop} {inline : String → List String} {block : Block}
    (h : ∀ line ∈ block.commands, P line) (hi : ∀ name, ∀ line ∈ inline name, P line) :
    ∀ line ∈ block.flat inline, P line := by
  induction block with
  | done => simp [flat]
  | command line rest ih =>
    rw [commands, List.forall_mem_cons] at h
    exact List.forall_mem_cons.mpr ⟨h.1, ih h.2⟩
  | loop label count times body rest ihb ihr =>
    rw [commands, List.forall_mem_append] at h
    refine List.forall_mem_append.mpr ⟨fun line hl => ?_, ihr h.2⟩
    obtain ⟨copy, hc, hl⟩ := List.mem_flatten.mp hl
    rw [List.eq_of_mem_replicate hc] at hl
    exact ihb h.1 line hl
  | call name rest ih => exact List.forall_mem_append.mpr ⟨hi name, ih h⟩

/-- A block comes to the same if its calls do. -/
theorem flat_congr {inline inline' : String → List String} {block : Block}
    (h : ∀ name ∈ block.calls, inline name = inline' name) : block.flat inline = block.flat inline' := by
  induction block with
  | done => rfl
  | command line rest ih => rw [flat, flat, ih h]
  | loop label count times body rest ihb ihr =>
    rw [calls, List.forall_mem_append] at h
    rw [flat, flat, ihb h.1, ihr h.2]
  | call name rest ih =>
    rw [calls, List.forall_mem_cons] at h
    rw [flat, flat, h.1, ih h.2]

section

variable (lines : List String)

theorem flat_ofCommands (inline : String → List String) : (ofCommands lines).flat inline = lines := by
  induction lines with
  | nil => rfl
  | cons line rest ih => rw [ofCommands, flat, ih]

theorem commands_ofCommands : (ofCommands lines).commands = lines := by
  induction lines with
  | nil => rfl
  | cons line rest ih => rw [ofCommands, commands, ih]

theorem calls_ofCommands : (ofCommands lines).calls = [] := by
  induction lines with
  | nil => rfl
  | cons line rest ih => rw [ofCommands, calls, ih]

theorem labels_ofCommands : (ofCommands lines).labels = [] := by
  induction lines with
  | nil => rfl
  | cons line rest ih => rw [ofCommands, labels, ih]

end

theorem formed_ofCommands {lines : List String} (h : ∀ line ∈ lines, IsAction line) : (ofCommands lines).Formed := by
  induction lines with
  | nil => trivial
  | cons line rest ih =>
    rw [List.forall_mem_cons] at h
    exact ⟨h.1, ih h.2⟩

end Block

namespace Script

variable {s : Script}

theorem mem_blocks_of_lookup {f : String} {body : Block} (h : s.functions.lookup f = some body) :
    body ∈ s.blocks := by
  obtain ⟨before, after, he, _⟩ := List.lookup_eq_some_iff.mp h
  simp [blocks, he]

theorem lookup_of_mem {f : String} (hf : f ∈ s.functions.map Prod.fst) : ∃ body, s.functions.lookup f = some body := by
  by_contra hn
  have hnone : s.functions.lookup f = none := by simpa [Option.eq_none_iff_forall_ne_some] using hn
  obtain ⟨entry, hm, rfl⟩ := List.mem_map.mp hf
  simpa using List.lookup_eq_none_iff.mp hnone entry hm

theorem blocks_unrolled (s : Script) : s.unrolled.blocks = s.blocks.map s.unroll := by
  simp [blocks, unrolled]

/-- What holds of all commands of a script holds of what its calls stand for. -/
theorem forall_mem_inlined {P : String → Prop} (h : ∀ block ∈ s.blocks, ∀ line ∈ block.commands, P line)
    (depth : Nat) (name : String) : ∀ line ∈ s.inlined depth name, P line := by
  induction depth generalizing name with
  | zero => simp [inlined]
  | succ depth ih =>
    rw [inlined]
    split
    · rename_i body hb
      exact Block.forall_mem_flat (h body (mem_blocks_of_lookup hb)) ih
    · simp

/-- From the depth of the calls on, the depth of inlining does not matter. -/
theorem inlined_eq {k l : Nat} {f : String} (hk : s.Nests k f) (hl : s.Nests l f) :
    s.inlined k f = s.inlined l f := by
  induction k generalizing l f with
  | zero => exact absurd hk id
  | succ k ih =>
    cases l with
    | zero => exact absurd hl id
    | succ l =>
      obtain ⟨body, hb, hk⟩ := hk
      obtain ⟨other, ho, hl⟩ := hl
      obtain rfl : body = other := by simpa [hb] using ho
      simp only [inlined, hb]
      exact Block.flat_congr fun g hg => ih (hk g hg) (hl g hg)

/-- Behind the first function of a chain of calls each is called by another. -/
theorem exists_caller {f : String} {chain : List String} (hc : List.IsChain s.Calls (f :: chain)) {g : String}
    (hg : g ∈ chain) : ∃ caller, s.Calls caller g := by
  induction chain generalizing f with
  | nil => simp at hg
  | cons next rest ih =>
    obtain ⟨hcall, hrest⟩ := List.isChain_cons_cons.mp hc
    rcases List.mem_cons.mp hg with rfl | hg
    · exact ⟨f, hcall⟩
    · exact ih hrest hg

namespace Structured

variable (h : s.Structured)
include h

/-- Chains of calls that are never longer than a number bound the nesting by it. -/
theorem nests_of_chains {k : Nat} {f : String} (hf : f ∈ s.functions.map Prod.fst)
    (hc : ∀ chain, List.IsChain s.Calls (f :: chain) → (f :: chain).length ≤ k) : s.Nests k f := by
  induction k generalizing f with
  | zero => exact absurd (hc [] (List.isChain_singleton f)) (by simp)
  | succ k ih =>
    obtain ⟨body, hb⟩ := lookup_of_mem hf
    refine ⟨body, hb, fun g hg => ih (h.defined body (mem_blocks_of_lookup hb) g hg) fun chain hchain => ?_⟩
    have hlonger : List.IsChain s.Calls (f :: g :: chain) := .cons_cons ⟨body, hb, hg⟩ hchain
    simpa using hc _ hlonger

theorem main_nests {f : String} (hf : f ∈ s.main.calls) : s.Nests 4095 f :=
  h.nests_of_chains (h.defined s.main (by simp [blocks]) f hf) fun chain => h.nesting f chain hf

/-- Without cycles the functions of a chain of calls are all different, so there are at most as many as
there are functions. -/
theorem nests {f : String} (hf : f ∈ s.functions.map Prod.fst) : s.Nests s.functions.length f := by
  refine h.nests_of_chains hf fun chain hchain => ?_
  have hpair : (f :: chain).Pairwise (Relation.TransGen s.Calls) :=
    List.isChain_iff_pairwise.mp (hchain.imp fun _ _ => .single)
  have hnodup : (f :: chain).Nodup := by
    refine hpair.imp ?_
    rintro a _ hab rfl
    exact h.acyclic a hab
  have hsub : f :: chain ⊆ s.functions.map Prod.fst := by
    intro g hg
    rcases List.mem_cons.mp hg with rfl | hg
    · exact hf
    · -- Every later function of the chain is called, so it is defined.
      obtain ⟨caller, body, hb, hcall⟩ := exists_caller hchain hg
      exact h.defined body (mem_blocks_of_lookup hb) g hcall
  simpa using (List.Nodup.subperm hnodup hsub).length_le

theorem isAction : ∀ block ∈ s.blocks, ∀ line ∈ block.commands, IsAction line :=
  fun block hb => (h.formed block hb).isAction

theorem unrolled : s.unrolled.Structured := by
  have hcalls : ∀ block ∈ s.unrolled.blocks, block.calls = [] := by
    rw [blocks_unrolled, List.forall_mem_map]
    exact fun block _ => Block.calls_ofCommands _
  have hno (f g : String) : ¬ s.unrolled.Calls f g := by
    rintro ⟨body, hb, hg⟩
    simp [hcalls body (mem_blocks_of_lookup hb)] at hg
  refine ⟨?_, ?_, ?_, ?_, ?_, ?_⟩
  · rw [blocks_unrolled, List.forall_mem_map]
    exact fun block hb =>
      Block.formed_ofCommands (Block.forall_mem_flat (h.isAction block hb) (forall_mem_inlined h.isAction _))
  · simp only [Script.unrolled, List.mem_map, forall_exists_index, and_imp]
    rintro _ f hf rfl
    exact h.names f hf
  · have hlabels : s.unrolled.labels = s.functions.flatMap fun f => [f.1] := by
      simp [labels, Script.unrolled, unroll, Block.labels_ofCommands, List.flatMap_map]
    rw [hlabels]
    refine List.Nodup.sublist (.trans ?_ (List.sublist_append_right s.main.labels _)) h.distinct
    exact .flatMap_right s.functions fun f _ => by simp
  · intro block hb name hn
    simp [hcalls block hb] at hn
  · intro f hf
    obtain ⟨g, hg, _⟩ := Relation.TransGen.head'_iff.mp hf
    exact hno f g hg
  · intro f chain hf
    simp [hcalls s.unrolled.main (by simp [blocks])] at hf

end Structured

end Script

end PointerScript
