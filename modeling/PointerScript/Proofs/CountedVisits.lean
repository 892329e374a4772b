import Mathlib.Data.Rat.Floor
import PointerScript.Proofs.Number.Order
import PointerScript.Proofs.Repetition

/-! How often a counted jump is taken. Its counter belongs to it alone: no other instruction, no pause and no way of
leaving a loop touches it. So whatever happens between its visits, a jump with a positive count falls through at every
visit whose number is a multiple of the count, rounded up, and goes to its target at all others. -/

namespace PointerScript

namespace Number

/-- The exact value of a finite number. -/
def rational? : Number → Option ℚ
  | int n => some n
  | float x => x.quanta?.map fun q : Int => (q : ℚ) / Binary64.unit

/-- A finite number is compared with a whole number by its exact value. -/
theorem le_int_iff {x : Number} {v : ℚ} (h : x.rational? = some v) (n : Int) : x.le (.int n) = true ↔ v ≤ n := by
  have hu : 0 < Binary64.unit := by decide +kernel
  cases x with
  | int k =>
    obtain rfl : (k : ℚ) = v := Option.some.inj h
    have hk : (Number.int k).extent? = some (0, k * Binary64.unit) := rfl
    have hn : (Number.int n).extent? = some (0, n * Binary64.unit) := rfl
    generalize Binary64.unit = unit at hu hk hn
    rw [le_iff hk hn, Int.cast_le]
    simp [hu]
  | float x =>
    obtain ⟨q, hq, rfl⟩ := Option.map_eq_some_iff.mp h
    rw [le_int hq, decide_eq_true_eq]
    generalize Binary64.unit = unit at hu
    rw [div_le_iff₀ (by exact_mod_cast hu)]
    exact_mod_cast Iff.rfl

end Number

namespace Instruction

/-- The count of a jump or a call. -/
def count? : Instruction → Option Operand
  | jump count _ _ | call count _ _ => some count
  | _ => none

end Instruction

/-- How often the instruction at an index was carried out. -/
def timesAt (index : Nat) (executed : List (Nat × Instruction)) : Nat :=
  executed.countP fun e => e.1 = index

namespace Machine

variable {m n : Machine} {index : Nat} {target : Int}

private theorem visitsAt_self (hlt : index < m.visits.size) (k : Nat) :
    (m.setVisits (some index) k).visitsAt (some index) = k := by
  simp [setVisits, visitsAt, Array.getD_eq_getD_getElem?, hlt]

/-- A jump with a positive count falls through when the visits reach the count, rounded up; until then it goes to its
target and counts the visit. -/
theorem jump_counted {count : Number} {v : ℚ} (hv : count.rational? = some v) (hpos : 0 < v)
    (hlt : index < m.visits.size) (target : Int) : ∃ n, m.jump (some index) (.literal count) target = (n, none) ∧
      if ⌈v⌉₊ ≤ m.visitsAt (some index) + 1 then n.visitsAt (some index) = 0 ∧ n.pc = m.pc
      else n.visitsAt (some index) = m.visitsAt (some index) + 1 ∧ n.pc = target - 1 := by
  have hzero : count.le (.int 0) = false := by
    rw [Bool.eq_false_iff, Ne, Number.le_int_iff hv]
    exact_mod_cast hpos.not_ge
  have hlast : count.le (.int (m.visitsAt (some index) + 1 : Nat)) = true ↔ ⌈v⌉₊ ≤ m.visitsAt (some index) + 1 := by
    rw [Number.le_int_iff hv, Nat.ceil_le]
    exact_mod_cast Iff.rfl
  simp only [jump, value, attempt, hzero, Bool.false_eq_true, if_false]
  by_cases hc : ⌈v⌉₊ ≤ m.visitsAt (some index) + 1
  · rw [if_pos (hlast.mpr hc)]
    refine ⟨_, rfl, ?_⟩
    rw [if_pos hc]
    exact ⟨visitsAt_self hlt 0, rfl⟩
  · rw [if_neg (mt hlast.mp hc)]
    refine ⟨_, rfl, ?_⟩
    rw [if_neg hc]
    exact ⟨visitsAt_self hlt _, rfl⟩

/-- A jump fails only where its count has no value. -/
theorem jump_literal (m : Machine) (index : Nat) (count : Number) (target : Int) :
    ∃ n, m.jump (some index) (.literal count) target = (n, none) := by
  simp only [jump, value, attempt]
  split
  · exact ⟨_, rfl⟩
  · split <;> exact ⟨_, rfl⟩

/-- A jump touches no counter but its own. -/
theorem visits_jump (m : Machine) (index : Nat) (count : Operand) (target : Int) :
    (m.jump (some index) count target).1.visits = m.visits ∨
      ∃ k, (m.jump (some index) count target).1.visits = m.visits.setIfInBounds index k := by
  unfold jump attempt
  cases m.value count with
  | error fault => exact .inl rfl
  | ok v =>
    dsimp only
    split
    · exact .inl rfl
    · split
      · exact .inr ⟨0, rfl⟩
      · exact .inr ⟨_, rfl⟩

/-- A jump or a call that is carried out jumps, the call after it has opened itself. -/
theorem carryOut_goes {memory : Memory} {inst : Instruction} {count : Operand} (hs : m.store = .ready memory)
    (hcount : inst.count? = some count) (ht : inst.target? = some target)
    (hc : m.carryOut (some index) inst = (n, none)) :
    ∃ m' : Machine, m'.visits = m.visits ∧ m'.pc = m.pc ∧ m'.jump (some index) count target = (n, none) := by
  cases inst with
  | jump other goal label =>
    obtain rfl : other = count := Option.some.inj hcount
    obtain rfl : goal = target := Option.some.inj ht
    exact ⟨m, rfl, rfl, hc⟩
  | call other goal label =>
    obtain rfl : other = count := Option.some.inj hcount
    obtain rfl : goal = target := Option.some.inj ht
    rw [carryOut, call_eq hs] at hc
    split at hc
    · cases (Prod.ext_iff.mp hc).2
    · exact ⟨m.withCalls memory (m.pc :: memory.calls), rfl, rfl, hc⟩
  | _ => cases hcount

end Machine

/-- An instruction of a compiled program touches no counter but its own. -/
theorem Contained.visits_cases {safe : Bool} {program : Array Instruction} {m : Machine} {index : Nat}
    {inst : Instruction} (hl : Laid safe program) (h : Contained safe program m) (hpc : m.pc = index)
    (hi : program[index]? = some inst) :
    (m.carryOut (some index) inst).1.visits = m.visits ∨
      ∃ k, (m.carryOut (some index) inst).1.visits = m.visits.setIfInBounds index k := by
  cases inst with
  | jump count target label => exact m.visits_jump index count target
  | call count target label =>
    rcases h.met hl hpc hi with ⟨hset, _⟩ | ⟨memory, hs⟩
    · cases hset
    · rw [Machine.carryOut, Machine.call_eq hs]
      split
      · exact .inl rfl
      · exact Machine.visits_jump _ index count target
  | _ => exact .inl (h.visits_carryOut hl hpc hi rfl)

/-- What the visits of an instruction come to: the counter after so many of them, and where each goes. The law holds
of one visit if the counter has followed it so far. -/
structure VisitLaw (safe : Bool) (program : Array Instruction) (index : Nat) (inst : Instruction)
    (counter : Nat → Nat) (place : Nat → Int) : Prop where
  zero : counter 0 = 0
  visit : ∀ {m n : Machine} {times : Nat}, Contained safe program m → m.pc = index → index < m.visits.size →
    m.visitsAt (some index) = counter times → m.carryOut (some index) inst = (n, none) →
    n.visitsAt (some index) = counter (times + 1) ∧ n.pc + 1 = place (times + 1)

namespace VisitLaw

open Run

variable {safe : Bool} {program : Array Instruction} {index : Nat} {inst : Instruction} {counter : Nat → Nat}
  {place : Nat → Int}

theorem timesAt_concat (index other : Nat) (executed : List (Nat × Instruction)) (inst : Instruction) :
    timesAt index (executed ++ [(other, inst)]) = timesAt index executed + if other = index then 1 else 0 := by
  rw [timesAt, List.countP_append, List.countP_singleton]
  simp [timesAt]

/-- A turn at the instruction follows the law. -/
theorem turn (hl : Laid safe program) (law : VisitLaw safe program index inst counter place) {r r' : Run}
    (h : Contained safe program r.machine) (hsize : r.machine.visits.size = program.size) (times : Nat)
    (hcounter : r.machine.visitsAt (some index) = counter times) (t : r.Turn index inst r') :
    r'.machine.visitsAt (some index) = counter (times + 1) ∧ r'.machine.pc = place (times + 1) := by
  obtain ⟨hpc, hi, _⟩ := t.contained hl h
  obtain ⟨_, _, m, n, hk, hc, he⟩ := t.carries
  have hlt : index < m.visits.size := by
    rw [hk.visits, hsize]
    exact (Array.getElem?_eq_some_iff.mp hi).1
  have hvisits : m.visitsAt (some index) = r.machine.visitsAt (some index) := by
    simp only [Machine.visitsAt, hk.visits]
  rw [he]
  exact law.visit (h.of_keeps hk) (hk.pc.trans hpc) hlt (hvisits.trans hcounter) hc

/-- At every loop head the counter has followed the law. -/
theorem counter_eq (hl : Laid safe program) (hi : program[index]? = some inst)
    (law : VisitLaw safe program index inst counter place) {m : Machine} {actions : List Action}
    {executed : List (Nat × Instruction)} {r : Run} (hr : ((m.load program).opening actions).Leads executed r) :
    r.machine.visits.size = program.size ∧ r.machine.visitsAt (some index) = counter (timesAt index executed) := by
  have hopen := contained_opening safe program m actions
  induction hr with
  | start =>
    refine ⟨Array.size_replicate, ?_⟩
    have hfresh : (Array.replicate program.size 0).getD index 0 = 0 := by
      rw [Array.getD_eq_getD_getElem?, Array.getElem?_replicate]
      split <;> rfl
    exact hfresh.trans law.zero.symm
  | @turn executed other done r r' hr t ih =>
    obtain ⟨hsize, hcounter⟩ := ih
    have hcont := hr.contained hl hopen
    obtain ⟨hpc, hdone, _⟩ := t.contained hl hcont
    obtain ⟨_, _, k, n, hk, hc, he⟩ := t.carries
    -- Only the counter of the instruction that was carried out may have changed.
    have hcases := (hcont.of_keeps hk).visits_cases hl (hk.pc.trans hpc) hdone
    rw [hc, hk.visits] at hcases
    have hvisits : r'.machine.visits = n.visits := by rw [he]; rfl
    rw [← hvisits] at hcases
    have hkept : r'.machine.visits.size = program.size := by
      rcases hcases with hsame | ⟨_, hset⟩
      · rw [hsame, hsize]
      · rw [hset, Array.size_setIfInBounds, hsize]
    refine ⟨hkept, ?_⟩
    rw [timesAt_concat]
    by_cases heq : other = index
    · subst heq
      obtain rfl : inst = done := Option.some.inj (hi.symm.trans hdone)
      rw [if_pos rfl]
      exact (law.turn hl hcont hsize _ hcounter t).1
    · rw [if_neg heq, Nat.add_zero, ← hcounter, Machine.visitsAt, Machine.visitsAt]
      rcases hcases with hsame | ⟨_, hset⟩
      · rw [hsame]
      · rw [hset, Array.getD_eq_getD_getElem?, Array.getD_eq_getD_getElem?, Array.getElem?_setIfInBounds_ne heq]

/-- Whatever happens between the visits, the counter and the places follow the law. -/
theorem leads (hl : Laid safe program) (hi : program[index]? = some inst)
    (law : VisitLaw safe program index inst counter place) {m : Machine} {actions : List Action}
    {executed : List (Nat × Instruction)} {r : Run} (hr : ((m.load program).opening actions).Leads executed r) :
    r.machine.visitsAt (some index) = counter (timesAt index executed) ∧
      ∀ r', r.Turn index inst r' → r'.machine.visitsAt (some index) = counter (timesAt index executed + 1) ∧
        r'.machine.pc = place (timesAt index executed + 1) := by
  obtain ⟨hsize, hcounter⟩ := law.counter_eq hl hi hr
  have hcont := hr.contained hl (contained_opening safe program m actions)
  exact ⟨hcounter, fun r' t => law.turn hl hcont hsize _ hcounter t⟩

section

variable {count : Number} {target : Int} (hl : Laid safe program) (hi : program[index]? = some inst)
  (hcount : inst.count? = some (.literal count)) (ht : inst.target? = some target)
include hl hi hcount ht

/-- A jump or a call jumps when it is carried out, with the counters and the program counter as they were. -/
private theorem goes {m n : Machine} (h : Contained safe program m) (hpc : m.pc = index)
    (hc : m.carryOut (some index) inst = (n, none)) :
    ∃ m' : Machine, m'.visits = m.visits ∧ m'.pc = m.pc ∧
      m'.jump (some index) (.literal count) target = (n, none) := by
  rcases h.met hl hpc hi with ⟨rfl, _⟩ | ⟨memory, hs⟩
  · cases hcount
  · exact Machine.carryOut_goes hs hcount ht hc

/-- The law of a positive count. -/
theorem counted {v : ℚ} (hv : count.rational? = some v) (hpos : 0 < v) :
    VisitLaw safe program index inst (fun times => times % ⌈v⌉₊)
      fun times => if ⌈v⌉₊ ∣ times then index + 1 else target := by
  refine ⟨Nat.zero_mod _, ?_⟩
  intro m n times h hpc hlt hcounter hc
  obtain ⟨m', hvisits, hpc', hjump⟩ := goes hl hi hcount ht h hpc hc
  obtain ⟨n', hn, hcase⟩ := Machine.jump_counted hv hpos (hvisits ▸ hlt) target
  obtain rfl : n' = n := (Prod.mk.inj (hn.symm.trans hjump)).1
  have hsame : m'.visitsAt (some index) = times % ⌈v⌉₊ := by
    rw [← hcounter, Machine.visitsAt, Machine.visitsAt, hvisits]
  rw [hsame] at hcase
  -- One visit more is a multiple of the bound exactly if the counter stood one below it.
  have hbound : 0 < ⌈v⌉₊ := Nat.ceil_pos.mpr hpos
  have hrest := Nat.mod_lt times hbound
  have hsucc : (times + 1) % ⌈v⌉₊ = (times % ⌈v⌉₊ + 1) % ⌈v⌉₊ := (Nat.mod_add_mod times ⌈v⌉₊ 1).symm
  by_cases hlast : ⌈v⌉₊ ≤ times % ⌈v⌉₊ + 1
  · have hfull : (times + 1) % ⌈v⌉₊ = 0 := by
      rw [hsucc, show times % ⌈v⌉₊ + 1 = ⌈v⌉₊ by omega, Nat.mod_self]
    rw [if_pos hlast] at hcase
    rw [if_pos (Nat.dvd_of_mod_eq_zero hfull), hfull, hcase.2, hpc', hpc]
    exact ⟨hcase.1, rfl⟩
  · have hpart : (times + 1) % ⌈v⌉₊ = times % ⌈v⌉₊ + 1 := by
      rw [hsucc, Nat.mod_eq_of_lt (Nat.not_le.mp hlast)]
    have hnot : ¬ ⌈v⌉₊ ∣ times + 1 := by
      rw [Nat.dvd_iff_mod_eq_zero, hpart]
      exact Nat.succ_ne_zero _
    rw [if_neg hlast] at hcase
    rw [if_neg hnot, hpart, hcase.2]
    exact ⟨hcase.1, Int.sub_add_cancel target 1⟩

/-- The law of a count that is not positive. -/
theorem uncounted (hle : count.le (.int 0) = true) :
    VisitLaw safe program index inst (fun _ => 0) fun _ => target := by
  refine ⟨rfl, ?_⟩
  intro m n times h hpc _ hcounter hc
  obtain ⟨m', hvisits, _, hjump⟩ := goes hl hi hcount ht h hpc hc
  rw [Machine.jump_uncounted m' hle] at hjump
  obtain rfl : m'.goTo target = n := (Prod.mk.inj hjump).1
  refine ⟨?_, Int.sub_add_cancel target 1⟩
  rw [← hcounter]
  exact congrArg (fun visits : Array Nat => visits.getD index 0) hvisits

end

end VisitLaw

/-- Minus infinity and finite numbers that are not positive are at most zero. -/
theorem Number.le_zero_of {x : Number} (h : x = .float (.infinite true) ∨ ∃ v, x.rational? = some v ∧ v ≤ 0) :
    x.le (.int 0) = true := by
  rcases h with rfl | ⟨v, hv, hle⟩
  · rw [le_iff (extent?_infinite true) extent?_zero]
    exact .inl (by decide)
  · rw [le_int_iff hv]
    exact_mod_cast hle

/-- Counted jumps under any control flow. In every run of a freshly loaded program that was compiled, whatever happens
between its visits: the i-th time that a jump is carried out whose count is written out, finite and positive, it falls
through if i is a multiple of the count, rounded up, and goes to its target if not, and its counter is then i modulo
the count, rounded up. If the count is not positive it always goes to its target and its counter stays zero. Both hold
of calls too, which always have such a count. And a jump with a count that is written out never fails. -/
theorem jump_counts_its_visits {safe : Bool} {source : String} {program : Array Instruction}
    (h : (compile safe source).1 = .program program) (m : Machine) (actions : List Action)
    (executed : List (Nat × Instruction)) (r : Run) (hr : ((m.load program).opening actions).Leads executed r)
    {index : Nat} {inst : Instruction} {count : Number} {target : Int} (hi : program[index]? = some inst)
    (hcount : inst.count? = some (.literal count)) (ht : inst.target? = some target) :
    let times := timesAt index executed
    (∀ v, count.rational? = some v → 0 < v →
      r.machine.visitsAt (some index) = times % ⌈v⌉₊ ∧
      ∀ r', r.Turn index inst r' → r'.machine.visitsAt (some index) = (times + 1) % ⌈v⌉₊ ∧
        r'.machine.pc = if ⌈v⌉₊ ∣ times + 1 then (index : Int) + 1 else target) ∧
    ((count = .float (.infinite true) ∨ ∃ v, count.rational? = some v ∧ v ≤ 0) →
      r.machine.visitsAt (some index) = 0 ∧
      ∀ r', r.Turn index inst r' → r'.machine.visitsAt (some index) = 0 ∧ r'.machine.pc = target) ∧
    ∀ g label, inst = .jump (.literal count) target label → r.machine.running = true →
      r.announce.passGate = (g, none) → g.fetch? = some (index, inst) → ∃ r', r.Turn index inst r' := by
  intro times
  have hl := laid_of_compile h
  refine ⟨?_, ?_, ?_⟩
  · intro v hv hpos
    exact (VisitLaw.counted hl hi hcount ht hv hpos).leads hl hi hr
  · intro hle
    exact (VisitLaw.uncounted hl hi hcount ht (Number.le_zero_of hle)).leads hl hi hr
  · rintro g label rfl hrun hg hf
    obtain ⟨n, hc⟩ := g.machine.jump_literal index count target
    exact ⟨_, Run.turn_of_carryOut hrun hg hf rfl hc⟩

/-- A jump with a count of one and a half, which is left by another jump and entered again: its second visit falls
through. -/
theorem second_visit_falls_through :
    let half : Number := .float (Decimal.nearest false ⟨15, -1⟩)
    let wait : Instruction := .wait (.literal (.float (Decimal.nearest false ⟨5, -1⟩)))
    let leap : Instruction := .jump (.literal half) 4 (.named "c")
    let back : Instruction := .jump Operand.absent 2 (.named "a")
    let program := #[.setup, wait, leap, .print "done", back]
    (compile false "label a\njump c 1.5\nprint done\nlabel c\njump a").1 = .program program ∧
    half.rational? = some (3 / 2) ∧
    ∃ r r', ((({} : Machine).load program).opening []).Leads [(0, .setup), (1, wait), (2, leap), (4, back)] r ∧
      r.Turn 2 leap r' ∧ r'.machine.visitsAt (some 2) = 0 ∧ r'.machine.pc = 3 := by
  intro half wait leap back program
  have hc : (compile false "label a\njump c 1.5\nprint done\nlabel c\njump a").1 = .program program := by
    decide +kernel
  have hhalf : half.rational? = some (3 / 2) := by
    have hq : (Decimal.nearest false ⟨15, -1⟩).quanta? = some (3 * ((Nat.pow 2 1073 : Nat) : Int)) := by
      decide +kernel
    have hunit : Binary64.unit = 2 * Nat.pow 2 1073 := by decide +kernel
    have hpos : 0 < Nat.pow 2 1073 := by decide +kernel
    change ((Decimal.nearest false ⟨15, -1⟩).quanta?.map fun q : Int => (q : ℚ) / Binary64.unit) = some (3 / 2)
    rw [hq, hunit]
    generalize Nat.pow 2 1073 = u at hpos
    have hu : (u : ℚ) ≠ 0 := by exact_mod_cast hpos.ne'
    simp only [Option.map_some, Option.some.injEq]
    push_cast
    field_simp
  have hceil : ⌈(3 / 2 : ℚ)⌉₊ = 2 := by
    rw [Nat.ceil_eq_iff (by decide)]
    norm_num
  let r0 := (({} : Machine).load program).opening []
  have t1 : r0.Turn 0 .setup r0.turn.1 := Run.turn_of_fetch (by decide +kernel) (by decide +kernel)
  have t2 : r0.turn.1.Turn 1 wait r0.turn.1.turn.1 := Run.turn_of_fetch (by decide +kernel) (by decide +kernel)
  have t3 : r0.turn.1.turn.1.Turn 2 leap r0.turn.1.turn.1.turn.1 :=
    Run.turn_of_fetch (by decide +kernel) (by decide +kernel)
  have t4 : r0.turn.1.turn.1.turn.1.Turn 4 back r0.turn.1.turn.1.turn.1.turn.1 :=
    Run.turn_of_fetch (by decide +kernel) (by decide +kernel)
  let r := r0.turn.1.turn.1.turn.1.turn.1
  have t5 : r.Turn 2 leap r.turn.1 := Run.turn_of_fetch (by decide +kernel) (by decide +kernel)
  have hr : r0.Leads [(0, .setup), (1, wait), (2, leap), (4, back)] r :=
    .turn (.turn (.turn (.turn .start t1) t2) t3) t4
  have hleap : program[2]? = some leap := rfl
  obtain ⟨hcounted, _⟩ := jump_counts_its_visits hc {} [] _ r hr hleap rfl rfl
  obtain ⟨hvisits, hpc⟩ := (hcounted (3 / 2) hhalf (by norm_num)).2 _ t5
  have htimes : timesAt 2 [(0, .setup), (1, wait), (2, leap), (4, back)] = 1 := by decide
  rw [htimes, hceil] at hvisits hpc
  exact ⟨hc, hhalf, r, _, hr, t5, hvisits, hpc⟩

end PointerScript
