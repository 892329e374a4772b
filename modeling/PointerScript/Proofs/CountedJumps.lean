import Mathlib.Algebra.BigOperators.Intervals
import Mathlib.Algebra.Order.BigOperators.Group.Finset
import PointerScript.Proofs.Number.Order
import PointerScript.Proofs.ReturnStack
import PointerScript.Proofs.SourceLines

/-! Counted jumps come to an end, however they are laid out. Every jump that is taken uses up one of the
rounds that it has left, and only going on behind it gives them back. So the rounds left at and behind the
program counter, each weighed so that it outweighs all there may be before it, shrink with every turn. -/

namespace PointerScript

open SourceLine

namespace Counted

/-- The most that the indices before an index can weigh, when so many rounds are allowed at each: one for
an index itself, and for each round more than the indices before it. -/
def reserve (rounds : Nat → Nat) : Nat → Nat
  | 0 => 0
  | i + 1 => reserve rounds i + (1 + (reserve rounds i + 1) * rounds i)

/-- What an index weighs with so many rounds left. -/
def weight (rounds left : Nat → Nat) (i : Nat) : Nat :=
  1 + (reserve rounds i + 1) * left i

/-- What an index and all behind it weigh. -/
def potential (rounds left : Nat → Nat) (size pc : Nat) : Nat :=
  ∑ i ∈ Finset.Ico pc size, weight rounds left i

variable {rounds left left' : Nat → Nat} {size i : Nat}

theorem reserve_eq (rounds : Nat → Nat) (i : Nat) :
    reserve rounds i = ∑ j ∈ Finset.range i, weight rounds rounds j := by
  induction i with
  | zero => rfl
  | succ i ih =>
    rw [reserve, Finset.sum_range_succ, ← ih]
    rfl

theorem weight_le (h : left i ≤ rounds i) : weight rounds left i ≤ weight rounds rounds i :=
  Nat.add_le_add_left (Nat.mul_le_mul_left _ h) 1

theorem potential_succ (h : i < size) :
    potential rounds left size i = weight rounds left i + potential rounds left size (i + 1) :=
  Finset.sum_eq_sum_Ico_succ_bot h _

theorem potential_congr (h : ∀ j, i ≤ j → left' j = left j) :
    potential rounds left' size i = potential rounds left size i := by
  apply Finset.sum_congr rfl
  intro j hj
  rw [weight, weight, h j (Finset.mem_Ico.mp hj).1]

/-- From whichever index on, there is no more than from a given one on and the reserve before it. -/
theorem potential_le (h : ∀ j, left j ≤ rounds j) (hi : i ≤ size) (pc : Nat) :
    potential rounds left size pc ≤ reserve rounds i + potential rounds left size i := by
  calc potential rounds left size pc
      ≤ ∑ j ∈ Finset.range size, weight rounds left j := by
        apply Finset.sum_le_sum_of_subset
        intro j hj
        exact Finset.mem_range.mpr (Finset.mem_Ico.mp hj).2
    _ = ∑ j ∈ Finset.range i, weight rounds left j + potential rounds left size i :=
        (Finset.sum_range_add_sum_Ico _ hi).symm
    _ ≤ reserve rounds i + potential rounds left size i := by
        rw [reserve_eq]
        exact Nat.add_le_add_right (Finset.sum_le_sum fun j _ => weight_le (h j)) _

theorem potential_le_reserve (h : ∀ j, left j ≤ rounds j) (pc : Nat) :
    potential rounds left size pc ≤ reserve rounds size := by
  have hle := potential_le h (Nat.le_refl size) pc
  rwa [potential, potential, Finset.Ico_self, Finset.sum_empty, Nat.add_zero] at hle

/-- Going on behind an index sheds its weight, whatever rounds it is given back. -/
theorem potential_advance (hi : i < size) (h : ∀ j, j ≠ i → left' j = left j) :
    potential rounds left' size (i + 1) < potential rounds left size i := by
  rw [potential_succ hi, potential_congr fun j hj => h j (by omega), weight]
  omega

/-- A jump from an index to any other uses up a round, which outweighs all that may come before. -/
theorem potential_jump (hi : i < size) (hl : ∀ j, left' j ≤ rounds j) (h : ∀ j, j ≠ i → left' j = left j)
    (hused : left i = left' i + 1) (target : Nat) :
    potential rounds left' size target < potential rounds left size i := by
  have hle := potential_le hl hi.le target
  have hbehind : potential rounds left' size (i + 1) = potential rounds left size (i + 1) :=
    potential_congr fun j hj => h j (by omega)
  rw [potential_succ hi, hbehind, weight] at hle
  rw [potential_succ hi, weight, hused, Nat.mul_add, Nat.mul_one]
  omega

end Counted

/-- Whether an operand is a count that is written out, finite and positive. -/
def Operand.isCount : Operand → Bool
  | .literal (.float x) => x.quanta?.any (0 < ·)
  | _ => false

theorem Operand.isCount_iff {o : Operand} :
    o.isCount = true ↔ ∃ x q, o = .literal (.float x) ∧ x.quanta? = some q ∧ 0 < q := by
  cases o with
  | named name => simp [isCount]
  | literal value =>
    cases value with
    | int n => simp [isCount]
    | float x => simp [isCount, Option.any_eq_true]

namespace Instruction

/-- Whether an instruction can neither wait for the user nor open a call, and jumps only a counted number
of times. -/
def Tame : Instruction → Prop
  | pause | call _ _ _ => False
  | jump count _ _ => count.isCount = true
  | _ => True

/-- A number of visits that a jump does not reach without falling through. -/
def rounds : Instruction → Nat
  | jump (.literal (.float x)) _ _ => (x.quanta?.getD 0).toNat / Binary64.unit + 1
  | _ => 0

end Instruction

def roundsIn (program : Array Instruction) (i : Nat) : Nat :=
  (program[i]?.map Instruction.rounds).getD 0

/-- A jump with a positive count that is not taken for the last time has rounds left. -/
private theorem lt_rounds {x : Binary64} {q : Int} (hq : x.quanta? = some q) {v : Nat}
    (h : (Number.float x).le (.int v) = false) : v < q.toNat / Binary64.unit + 1 := by
  rw [Number.le_int hq, decide_eq_false_iff_not] at h
  have hu : 0 < Binary64.unit := by decide +kernel
  generalize Binary64.unit = unit at h hu ⊢
  have hlt : v * unit ≤ q.toNat := by
    have : ((v * unit : Nat) : Int) < q := by rw [Int.natCast_mul]; omega
    omega
  exact Nat.lt_succ_of_le ((Nat.le_div_iff_mul_le hu).mpr hlt)

namespace Machine

variable {safe : Bool} {program : Array Instruction} {m n : Machine} {index : Nat} {inst : Instruction}

/-- What a tame instruction can do to the counters: it goes on behind itself with its own counter alone
changed, or it is a jump that is taken and counts one more visit, with rounds still left. -/
private def Counts (program : Array Instruction) (m n : Machine) (index : Nat) : Prop :=
  n.gate = m.gate ∧ n.visits.size = m.visits.size ∧
    (∀ i, i ≠ index → n.visits.getD i 0 = m.visits.getD i 0) ∧
    (n.pc = m.pc ∨
      (n.visits.getD index 0 = m.visits.getD index 0 + 1 ∧ n.visits.getD index 0 < roundsIn program index))

private theorem getD_setIfInBounds (visits : Array Nat) {i j : Nat} (h : j ≠ i) (k : Nat) :
    (visits.setIfInBounds i k).getD j 0 = visits.getD j 0 := by
  rw [Array.getD_eq_getD_getElem?, Array.getD_eq_getD_getElem?, Array.getElem?_setIfInBounds_ne (Ne.symm h)]

private theorem counts_jump {count : Operand} {target : Int} {label : LabelName} (hlt : index < m.visits.size)
    (hi : program[index]? = some (.jump count target label)) (ht : (Instruction.jump count target label).Tame)
    (hc : m.carryOut (some index) (.jump count target label) = (n, none)) : Counts program m n index := by
  obtain ⟨x, q, rfl, hq, hpos⟩ := Operand.isCount_iff.mp ht
  have hu : 0 < Binary64.unit := by decide +kernel
  have hzero : (Number.float x).le (.int 0) = false := by
    rw [Number.le_int hq, decide_eq_false_iff_not]
    omega
  have hrounds : roundsIn program index = q.toNat / Binary64.unit + 1 := by
    simp only [roundsIn, hi, Option.map_some, Option.getD_some, Instruction.rounds, hq]
  change m.jump (some index) (.literal (.float x)) target = (n, none) at hc
  simp only [jump, value, attempt, hzero, Bool.false_eq_true, if_false] at hc
  by_cases hlast : (Number.float x).le (.int (m.visitsAt (some index) + 1 : Nat)) = true
  · rw [if_pos hlast] at hc
    obtain rfl := (Prod.ext_iff.mp hc).1
    exact ⟨rfl, Array.size_setIfInBounds, fun i hne => getD_setIfInBounds _ hne 0, .inl rfl⟩
  · rw [if_neg hlast] at hc
    obtain rfl := (Prod.ext_iff.mp hc).1
    have hget : (m.visits.setIfInBounds index (m.visits.getD index 0 + 1)).getD index 0 =
        m.visits.getD index 0 + 1 := by
      simp [Array.getD_eq_getD_getElem?, hlt]
    refine ⟨rfl, Array.size_setIfInBounds, fun i hne => getD_setIfInBounds _ hne _, .inr ⟨hget, ?_⟩⟩
    change (m.visits.setIfInBounds index (m.visits.getD index 0 + 1)).getD index 0 < _
    rw [hget, hrounds]
    exact lt_rounds hq (Bool.eq_false_iff.mpr hlast)

/-- An instruction of a tame program counts in this way. -/
private theorem counts (hl : Laid safe program) (h : Contained safe program m) (ho : m.openCalls = [])
    (hlt : index < m.visits.size) (hpc : m.pc = index) (hi : program[index]? = some inst) (ht : inst.Tame)
    (hc : m.carryOut (some index) inst = (n, none)) : Counts program m n index := by
  have hstill {k : Machine} (hg : k.gate = m.gate) (hv : k.visits = m.visits) (hp : k.pc = m.pc) :
      Counts program m k index :=
    ⟨hg, by rw [hv], fun i _ => by rw [hv], .inl hp⟩
  by_cases h0 : index = 0
  · subst h0
    have hset := hl.setup
    rw [hi] at hset
    obtain rfl : inst = .setup := Option.some.inj hset
    simp only [carryOut, h.start hpc, Prod.mk.injEq, and_true] at hc
    subst hc
    exact hstill rfl rfl rfl
  obtain ⟨memory, hs⟩ := h.ready (by omega)
  have hplain (hp : inst.isPlain = true) : Counts program m n index := by
    obtain ⟨d, fault, _, hd⟩ := carryOut_plain hp (m.scene memory) memory.safe
    rw [hd m memory _ hs rfl fun _ => rfl] at hc
    obtain rfl := (Prod.ext_iff.mp hc).1
    exact hstill rfl rfl rfl
  rcases hl.behind h0 hi with hp | rfl | ⟨_, hfit⟩
  · exact hplain hp
  · simp only [carryOut, setSafe, hs, Store.setSafe, attemptMemory, Prod.mk.injEq, and_true] at hc
    subst hc
    exact hstill rfl rfl rfl
  · cases inst with
    | setup | safeMode | popup | halt => exact absurd hfit id
    | pause | call => exact absurd ht id
    | jump count target label => exact counts_jump hlt hi ht hc
    | ret =>
      -- No call is open, so a return falls through.
      rw [openCalls_ready hs] at ho
      simp only [carryOut, ret_empty hs ho, Prod.mk.injEq, and_true] at hc
      subst hc
      exact hstill rfl rfl rfl
    | finish =>
      obtain rfl := (Prod.ext_iff.mp hc).1
      exact hstill rfl rfl rfl
    | _ => exact hplain rfl

end Machine

/-- A run without actions between two turns: nothing holds it up and no call is open. -/
structure Unhindered (safe : Bool) (program : Array Instruction) (r : Run) : Prop where
  contained : Contained safe program r.machine
  free : r.machine.isPaused = false
  pending : r.pending = []
  calls : r.machine.openCalls = []
  counters : r.machine.visits.size = program.size

/-- What the rounds left at and behind the program counter weigh. -/
def Run.weightLeft (program : Array Instruction) (r : Run) : Nat :=
  Counted.potential (roundsIn program) (fun i => roundsIn program i - r.machine.visits.getD i 0) program.size
    r.machine.pc.toNat

namespace Unhindered

open Run

variable {safe : Bool} {program : Array Instruction} {r r' : Run} {index : Nat} {inst : Instruction}

private theorem track_tame (ht : inst.Tame) (index : Int) : inst.track [] index = [] := by
  cases inst with
  | call => exact absurd ht id
  | _ => rfl

/-- A turn of a tame program leaves less to do. -/
theorem turn (hl : Laid safe program) (ht : ∀ inst ∈ program, inst.Tame)
    (h : Unhindered safe program r) (t : r.Turn index inst r') :
    Unhindered safe program r' ∧ r'.weightLeft program < r.weightLeft program := by
  obtain ⟨hpc, hi, hcont, _⟩ := t.contained hl h.contained
  obtain ⟨hlt, _⟩ := Array.getElem?_eq_some_iff.mp hi
  have htame := ht inst (Array.mem_of_getElem? hi)
  have hopen : r'.machine.openCalls = [] := by
    rw [t.openCalls hl h.contained, h.calls, track_tame htame]
  have hturn := turn_carries t.running h.pending h.free hpc (by rw [h.contained.loaded]; exact hi) t.carries.2.1
  rw [t.turn_eq] at hturn
  rcases hc : r.machine.carryOut (some index) inst with ⟨n, _ | fault⟩
  · rw [hc] at hturn
    obtain rfl := (Prod.ext_iff.mp hturn).1
    obtain ⟨hgate, hsize, hothers, hcase⟩ :=
      Machine.counts hl h.contained h.calls (by rw [h.counters]; exact hlt) hpc hi htame hc
    have hfree : n.isPaused = false := by rw [← h.free, Machine.isPaused, Machine.isPaused, hgate]
    refine ⟨⟨hcont, hfree, h.pending, hopen, hsize.trans h.counters⟩, ?_⟩
    have hleft : ∀ i, i ≠ index → roundsIn program i - n.visits.getD i 0 =
        roundsIn program i - r.machine.visits.getD i 0 := fun i hne => by rw [hothers i hne]
    change Counted.potential _ (fun i => roundsIn program i - n.visits.getD i 0) _ (n.pc + 1).toNat < _
    rw [weightLeft, hpc, Int.toNat_natCast]
    rcases hcase with hstay | ⟨hvisit, hrounds⟩
    · rw [hstay, hpc]
      exact Counted.potential_advance hlt hleft
    · refine Counted.potential_jump hlt (fun i => Nat.sub_le _ _) hleft ?_ _
      omega
  · rw [hc] at hturn
    exact absurd (Prod.ext_iff.mp hturn).2 (by simp)

/-- Where it ends, it returns. -/
theorem ends {outcome : Outcome} (h : Unhindered safe program r)
    (ht : r.turn = (r', some outcome)) : outcome = .returned := by
  have hordered := turn_ends_orderly h.contained (by simp [h.pending]) ht
  rcases turn_eq_some ht with ⟨_, ho, _⟩ | hg | ⟨_, _, _, ⟨_, _, rfl, _⟩ | ⟨ho, _⟩ | ⟨_, _, _, _, _, _, _, ho, _⟩⟩
  · exact ho
  · have ha : r.announce = r := by rw [announce, if_neg (by simp [h.free])]
    rw [ha, passGate_open h.pending h.free] at hg
    exact absurd (Prod.ext_iff.mp hg).2 (by simp)
  · simp at hordered
  · exact ho
  · exact ho

/-- So it returns within as many turns as there is weight. -/
theorem returns (hl : Laid safe program) (ht : ∀ inst ∈ program, inst.Tame)
    {budget : Nat} (h : Unhindered safe program r) (hb : r.weightLeft program < budget) :
    (loop budget r).2 = .returned := by
  induction budget generalizing r with
  | zero => exact absurd hb (Nat.not_lt_zero _)
  | succ budget ih =>
    rcases hr : r.turn with ⟨r', _ | outcome⟩
    · obtain ⟨index, inst, t⟩ := turn_eq_none hr
      obtain ⟨h', hless⟩ := h.turn hl ht t
      rw [loop_of_turn hr]
      exact ih h' (by omega)
    · rw [loop_of_end hr]
      exact h.ends hr

theorem of_opening (m : Machine) :
    Unhindered safe program ((m.load program).opening []) :=
  ⟨contained_opening safe program m [], rfl, rfl, rfl, Array.size_replicate⟩

end Unhindered

private theorem Instruction.Tame.withTarget {inst : Instruction} (h : inst.Tame) (target : Int) :
    (inst.withTarget target).Tame := by
  cases inst with
  | _ => exact h

/-- A source text without calls and pauses whose jumps are counted compiles to tame instructions. -/
theorem tame_of_compile {safe : Bool} {source : String} {program : Array Instruction}
    (h : (compile safe source).1 = .program program)
    (hquiet : ∀ line ∈ sourceLines source, word line ≠ "call" ∧ word line ≠ "pause")
    (hcounts : ∀ line ∈ sourceLines source, word line = "jump" → (count line).isCount = true) :
    ∀ inst ∈ program, inst.Tame := by
  intro inst hi
  rcases mem_of_compile h hi with hinit | ⟨line, hline, built, hbuilt, hsame⟩
  · have hall : ∀ i ∈ Standard.initial safe, i.Tame := by
      cases safe <;> simp [Standard.initial, Instruction.Tame]
    exact hall inst hinit
  · have ht : built.Tame := by
      obtain ⟨hcall, hpause⟩ := hquiet line hline
      by_cases hl : word line = "label"
      · exact absurd (alone_label hl hbuilt) (by simp)
      · by_cases hj : word line = "jump"
        · obtain ⟨label, _, hitem⟩ := alone_jump hj hbuilt
          obtain rfl := Built.instruction.inj hitem
          exact hcounts line hline hj
        · obtain ⟨other, hitem, hnone, hp, _⟩ := alone_other hl hcall hj hbuilt
          obtain rfl := Built.instruction.inj hitem
          cases built with
          | pause => exact absurd (hp rfl) hpause
          | call | jump => simp [Instruction.label?] at hnone
          | _ => trivial
    rcases hsame with rfl | ⟨target, rfl⟩
    · exact ht
    · exact ht.withTarget target

/-- Counted jumps come to an end. A source text that compiles, has no `call` and no `pause`, and in which
every `jump` has a count that is written out, finite and positive, has a number of steps within which it
returns, however its labels and jumps are laid out and whatever machine it runs on. -/
theorem counted_jumps_return {safe : Bool} {source : String} {program : Array Instruction}
    (h : (compile safe source).1 = .program program)
    (hquiet : ∀ line ∈ sourceLines source, word line ≠ "call" ∧ word line ≠ "pause")
    (hcounts : ∀ line ∈ sourceLines source, word line = "jump" → (count line).isCount = true) :
    ∃ bound, ∀ (m : Machine) (budget : Nat), bound ≤ budget →
      ((m.load program).execute budget []).2 = .returned := by
  have hl := laid_of_compile h
  have hsize : 0 < program.size :=
    Nat.lt_of_lt_of_le (Nat.lt_of_lt_of_le Nat.zero_lt_two (Standard.two_le_first safe)) hl.size
  refine ⟨Counted.reserve (roundsIn program) program.size + 1, fun m budget hb => ?_⟩
  rw [Machine.execute_eq hsize]
  apply (Unhindered.of_opening m).returns hl (tame_of_compile h hquiet hcounts)
  exact Nat.lt_of_le_of_lt (Counted.potential_le_reserve (fun i => Nat.sub_le _ _) _) hb

/-- Two jumps back whose ranges overlap, one with a count that is not whole, and a jump into the middle of
both from before them. -/
theorem overlapping_jumps_return :
    let source := "jump b 3\nlabel a\nclick\nlabel b\nclick right\njump a 2\njump b 2.5"
    let body : List Instruction := [.jump (.literal (.float (Binary64.ofInt 3))) 4 (.named "b"), .leftClick,
      .rightClick, .jump (.literal (.float (Binary64.ofInt 2))) 3 (.named "a"),
      .jump (.literal (.float (Decimal.nearest false ⟨25, -1⟩))) 4 (.named "b")]
    let program := (Standard.initial false ++ body).toArray
    (compile false source).1 = .program program ∧
    (∀ line ∈ sourceLines source, word line ≠ "call" ∧ word line ≠ "pause") ∧
    (∀ line ∈ sourceLines source, word line = "jump" → (count line).isCount = true) ∧
    ∃ bound, ∀ (m : Machine) (budget : Nat), bound ≤ budget →
      ((m.load program).execute budget []).2 = .returned := by
  intro source body program
  have hc : (compile false source).1 = .program program := by decide +kernel
  have hquiet : ∀ line ∈ sourceLines source, word line ≠ "call" ∧ word line ≠ "pause" := by decide +kernel
  have hcounts : ∀ line ∈ sourceLines source, word line = "jump" → (count line).isCount = true := by
    decide +kernel
  exact ⟨hc, hquiet, hcounts, counted_jumps_return hc hquiet hcounts⟩

end PointerScript
