import PointerScript.Proofs.Assembly
import PointerScript.Proofs.Turns

/-! Where a compiled script can go. Jumps and calls go to places behind the initial instructions, and
so do the returns from every call that is open; so the program counter never leaves the program and
never comes back to the initial instructions. -/

namespace PointerScript

namespace Instruction

def target? : Instruction → Option Int
  | jump _ target _ | call _ target _ => some target
  | _ => none

/-- Whether an instruction can stand behind the initial instructions of a program: it can be written
in a script, and where it goes lies between the initial instructions and the end of the program. -/
def Fits (first size : Nat) : Instruction → Prop
  | setup | safeMode _ | popup _ _ _ | halt => False
  | jump _ target _ => first ≤ target ∧ target ≤ size
  | call count target _ => count = Operand.absent ∧ first ≤ target ∧ target ≤ size
  | _ => True

/-- The open calls after an instruction at an index: a call opens one, a return closes the newest. -/
def track (inst : Instruction) (calls : List Int) (index : Int) : List Int :=
  match inst with
  | call _ _ _ => index :: calls
  | ret => calls.tail
  | _ => calls

theorem track_of_isPlain {inst : Instruction} (h : inst.isPlain = true) (calls : List Int) (index : Int) :
    inst.track calls index = calls := by
  cases inst <;> first | rfl | simp [isPlain] at h

theorem Fits.target_bounds {first size : Nat} {inst : Instruction} (h : inst.Fits first size) {target : Int}
    (ht : inst.target? = some target) : first ≤ target ∧ target ≤ size := by
  cases inst with
  | jump count goal label =>
    obtain rfl : goal = target := by simpa [target?] using ht
    exact h
  | call count goal label =>
    obtain rfl : goal = target := by simpa [target?] using ht
    exact h.2
  | _ => simp [target?] at ht

end Instruction

namespace Standard

abbrev first (safe : Bool) : Nat := (initial safe).length

theorem first_eq (safe : Bool) : first safe = if safe then 3 else 2 := by
  cases safe <;> rfl

theorem two_le_first (safe : Bool) : 2 ≤ first safe := by
  rw [first_eq]
  split <;> omega

end Standard

/-- How a compiled program is laid out. -/
structure Laid (safe : Bool) (program : Array Instruction) : Prop where
  size : Standard.first safe ≤ program.size
  initial : ∀ index, index < Standard.first safe → program[index]? = (Standard.initial safe)[index]?
  body : ∀ index inst, Standard.first safe ≤ index → program[index]? = some inst →
    inst.Fits (Standard.first safe) program.size

private theorem fits_resolve {first size : Nat} {labels : Labels} {inst : Instruction}
    (hw : inst.isWritten = true) (hd : labels.Defines inst)
    (hl : ∀ p ∈ labels, first ≤ p.2 ∧ p.2 ≤ size) : (labels.resolve inst).Fits first size := by
  -- A label that is defined is one of the entries, so its place lies in the bounds of the entries.
  have hfind {label : LabelName} (hn : inst.label? = some label) :
      ∃ place : Nat, labels.find? label = some place ∧ first ≤ place ∧ place ≤ size := by
    obtain ⟨place, hp⟩ := Option.isSome_iff_exists.mp (hd label hn)
    cases label with
    | named name =>
      have hm : (name, place) ∈ labels := by
        obtain ⟨before, rest, rfl, _⟩ := List.lookup_eq_some_iff.mp hp
        simp
      exact ⟨place, hp, hl _ hm⟩
    | unnamed => simp [Labels.find?] at hp
  cases inst with
  | jump count target label =>
    obtain ⟨place, hp, hb⟩ := hfind rfl
    simp only [Labels.resolve, Instruction.label?, Option.bind_some, hp, Instruction.withTarget,
      Instruction.Fits]
    omega
  | call count target label =>
    obtain ⟨place, hp, hb⟩ := hfind rfl
    simp only [Instruction.isWritten, Bool.and_eq_true, decide_eq_true_eq] at hw
    simp only [Labels.resolve, Instruction.label?, Option.bind_some, hp, Instruction.withTarget,
      Instruction.Fits]
    exact ⟨hw.1, by omega⟩
  | setup | safeMode | popup | halt => simp [Instruction.isWritten] at hw
  | _ => trivial

/-- Every compiled program is laid out so. -/
theorem laid_of_compile {safe : Bool} {source : String} {program : Array Instruction}
    (h : (compile safe source).1 = .program program) : Laid safe program := by
  obtain ⟨items, hw, hd, hp⟩ := compile_eq_program.mp h
  have hs : program.size = Standard.first safe + (codeOf items).length := by
    rw [← Array.length_toList, hp]
    simp
  have hg (index : Nat) : program[index]? = (Standard.initial safe ++
      (codeOf items).map (labelsOf (Standard.initial safe) items).resolve)[index]? := by
    rw [← hp, Array.getElem?_toList]
  refine ⟨by omega, ?_, ?_⟩
  · intro index hi
    rw [hg, List.getElem?_append_left hi]
  · intro index inst hi he
    rw [hg, List.getElem?_append_right hi, List.getElem?_map, Option.map_eq_some_iff] at he
    obtain ⟨written, hm, rfl⟩ := he
    have hmem := List.mem_of_getElem? hm
    refine fits_resolve (hw.1 _ hmem) (hd _ hmem) ?_
    rintro ⟨name, place⟩ hpl
    obtain ⟨hlow, hhigh⟩ := place_bounds hpl
    exact ⟨hlow, hs ▸ hhigh⟩

namespace Laid

variable {safe : Bool} {program : Array Instruction} {index : Nat} {inst : Instruction}

/-- A program starts by setting up the memory. -/
theorem setup (hl : Laid safe program) : program[0]? = some .setup := by
  rw [hl.initial 0 (Nat.lt_of_lt_of_le Nat.zero_lt_two (Standard.two_le_first safe))]
  rfl

/-- Then it waits a moment. -/
theorem wait (hl : Laid safe program) :
    program[1]? = some (.wait (.literal (.float (Decimal.nearest false ⟨5, -1⟩)))) := by
  rw [hl.initial 1 (Standard.two_le_first safe)]
  simp only [Standard.initial, List.cons_append, List.getElem?_cons_succ, List.getElem?_cons_zero]

/-- Where clicks are to be held back, that comes next. -/
theorem safeMode (hl : Laid true program) : program[2]? = some (.safeMode true) := by
  rw [hl.initial 2 (by simp [Standard.first_eq])]
  simp [Standard.initial]

/-- Behind the first instruction stand plain ones, at most one that holds clicks back, and those of the
script. -/
theorem behind (hl : Laid safe program) (h0 : index ≠ 0) (hi : program[index]? = some inst) :
    inst.isPlain = true ∨ inst = .safeMode true ∨
      (Standard.first safe ≤ index ∧ inst.Fits (Standard.first safe) program.size) := by
  by_cases hlt : index < Standard.first safe
  · have he := hl.initial index hlt
    rw [hi, Standard.initial] at he
    rw [Standard.first_eq] at hlt
    rcases index with _ | _ | _ | index
    · exact absurd rfl h0
    · simp only [List.cons_append, List.nil_append, List.getElem?_cons_succ, List.getElem?_cons_zero,
        Option.some.injEq] at he
      exact .inl (by rw [he]; rfl)
    · cases safe with
      | false => simp at hlt
      | true =>
        simp at he
        exact .inr (.inl he)
    · split at hlt <;> omega
  · exact .inr (.inr ⟨by omega, hl.body index inst (by omega) hi⟩)

end Laid

/-- Whether an entry of the open calls is the index of a call behind the initial instructions. -/
def IsCallEntry (safe : Bool) (program : Array Instruction) (entry : Int) : Prop :=
  Standard.first safe ≤ entry ∧ ∃ (index : Nat) (count : Operand) (target : Int) (label : LabelName),
    entry = index ∧ program[index]? = some (.call count target label)

/-- Between two turns of a compiled script: the program counter lies in the program, the memory is
there from the first instruction on, and every open call is a call behind the initial instructions. -/
structure Contained (safe : Bool) (program : Array Instruction) (m : Machine) : Prop where
  loaded : m.program = program
  nonneg : 0 ≤ m.pc
  le_size : m.pc ≤ program.size
  start : m.pc = 0 → m.store = .loose none none
  ready : m.pc ≠ 0 → ∃ memory, m.store = .ready memory
  calls : ∀ entry ∈ m.openCalls, IsCallEntry safe program entry
  early : m.pc < Standard.first safe → m.openCalls = []
  depth : m.openCalls.length < Memory.callLimit

/-- What an instruction of a compiled script can do to the program counter and to the open calls: it
leaves both alone, it goes to its target, or it returns to the newest open call. -/
def Steers (safe : Bool) (program : Array Instruction) (m : Machine) (index : Nat) (inst : Instruction)
    (n : Machine) : Prop :=
  n.program = program ∧ ∃ memory, n.store = .ready memory ∧ memory.calls.length < Memory.callLimit ∧
    memory.calls = inst.track m.openCalls index ∧
    ((n.pc = m.pc ∧ memory.calls = m.openCalls) ∨
      (Standard.first safe ≤ index ∧ inst.Fits (Standard.first safe) program.size ∧
        inst.target? = some (n.pc + 1)) ∨
      (inst = .ret ∧ m.openCalls = n.pc :: memory.calls))

namespace Contained

variable {safe : Bool} {program : Array Instruction} {m n : Machine} {memory : Memory}

theorem of_keeps (h : Contained safe program m) (hk : m.Keeps n) : Contained safe program n := by
  have ho : n.openCalls = m.openCalls := by simp only [Machine.openCalls, hk.store]
  refine ⟨hk.program.trans h.loaded, ?_, ?_, ?_, ?_, ?_, ?_, ?_⟩
  · simpa only [hk.pc] using h.nonneg
  · simpa only [hk.pc] using h.le_size
  · simpa only [hk.pc, hk.store] using h.start
  · simpa only [hk.pc, hk.store] using h.ready
  · simpa only [ho] using h.calls
  · simpa only [hk.pc, ho] using h.early
  · simpa only [ho] using h.depth

section

variable {index : Nat} {inst : Instruction}

/-- An instruction that neither moves the program counter nor opens or closes calls. -/
private theorem steers_still (h : Contained safe program m) (hp : n.program = m.program) (hn : n.pc = m.pc)
    (hs : n.store = .ready memory) (ho : memory.calls = m.openCalls)
    (ht : inst.track m.openCalls index = m.openCalls) : Steers safe program m index inst n :=
  ⟨hp.trans h.loaded, memory, hs, ho ▸ h.depth, ho.trans ht.symm, .inl ⟨hn, ho⟩⟩

private theorem steers_plain (h : Contained safe program m) (hs : m.store = .ready memory)
    (hplain : inst.isPlain = true) (hc : m.carryOut (some index) inst = (n, none)) :
    Steers safe program m index inst n := by
  obtain ⟨d, fault, _, hd⟩ := Machine.carryOut_plain hplain (m.scene memory) memory.safe
  rw [hd m memory _ hs rfl fun _ => rfl] at hc
  simp only [Prod.mk.injEq] at hc
  obtain ⟨rfl, _⟩ := hc
  exact h.steers_still rfl rfl rfl (Machine.openCalls_ready hs).symm (Instruction.track_of_isPlain hplain _ _)

private theorem steers_jump (h : Contained safe program m) (hs : m.store = .ready memory) {count : Operand}
    {target : Int} {label : LabelName} (hfirst : Standard.first safe ≤ index)
    (hfit : (Instruction.jump count target label).Fits (Standard.first safe) program.size)
    (hc : m.carryOut (some index) (.jump count target label) = (n, none)) :
    Steers safe program m index (.jump count target label) n := by
  have ho := Machine.openCalls_ready hs
  rcases m.jump_cases (some index) count target with ⟨fault, he⟩ | ⟨visits, he⟩ | ⟨visits, he⟩ <;>
    simp only [Machine.carryOut, he, Prod.mk.injEq, reduceCtorEq, and_false, and_true] at hc <;> subst hc
  · exact h.steers_still rfl rfl hs ho.symm rfl
  · refine ⟨h.loaded, memory, hs, ho ▸ h.depth, ho.symm, .inr (.inl ⟨hfirst, hfit, ?_⟩)⟩
    simp [Instruction.target?]

/-- A call that is carried out is not one too many, so it opens one more and goes to its target. -/
private theorem steers_call (h : Contained safe program m) (hs : m.store = .ready memory) {count : Operand}
    {target : Int} {label : LabelName} (hpc : m.pc = index) (hfirst : Standard.first safe ≤ index)
    (hfit : (Instruction.call count target label).Fits (Standard.first safe) program.size)
    (hc : m.carryOut (some index) (.call count target label) = (n, none)) :
    Steers safe program m index (.call count target label) n := by
  obtain rfl := hfit.1
  simp only [Machine.carryOut, Machine.call_absent hs] at hc
  split at hc
  · simp at hc
  · rename_i hdepth
    simp only [Prod.mk.injEq, and_true] at hc
    subst hc
    refine ⟨h.loaded, _, rfl, Nat.not_le.mp hdepth, ?_, .inr (.inl ⟨hfirst, hfit, ?_⟩)⟩
    · rw [Machine.openCalls_ready hs, hpc, Instruction.track]
    · simp [Instruction.target?, Machine.goTo]

/-- No open call has index zero, so a return with an open call goes back to it. -/
private theorem steers_ret (h : Contained safe program m) (hs : m.store = .ready memory)
    (hc : m.carryOut (some index) .ret = (n, none)) : Steers safe program m index .ret n := by
  have ho := Machine.openCalls_ready hs
  cases hcalls : memory.calls with
  | nil =>
    simp only [Machine.carryOut, Machine.ret_empty hs hcalls, Prod.mk.injEq, and_true] at hc
    subst hc
    exact h.steers_still rfl rfl hs ho.symm (by rw [ho, hcalls]; rfl)
  | cons last earlier =>
    have hdepth := h.depth
    rw [ho, hcalls, List.length_cons] at hdepth
    have hz : last ≠ 0 := by
      have := (h.calls last (by rw [ho, hcalls]; simp)).1
      have := Standard.two_le_first safe
      omega
    simp only [Machine.carryOut, Machine.ret_open hs hcalls hz, Prod.mk.injEq, and_true] at hc
    subst hc
    refine ⟨h.loaded, _, rfl, Nat.lt_of_succ_lt hdepth, ?_, .inr (.inr ⟨rfl, ?_⟩)⟩
    · rw [ho, hcalls]
      rfl
    · rw [ho, hcalls]

/-- One instruction of a compiled script steers the machine in one of these ways. -/
theorem steers (hl : Laid safe program) (h : Contained safe program m) (hpc : m.pc = index)
    (hi : program[index]? = some inst) (hc : m.carryOut (some index) inst = (n, none)) :
    Steers safe program m index inst n := by
  by_cases h0 : index = 0
  · subst h0
    have hset := hl.setup
    rw [hi] at hset
    obtain rfl : inst = .setup := by simpa using hset
    have hs := h.start hpc
    simp only [Machine.carryOut, hs, Prod.mk.injEq, and_true] at hc
    subst hc
    exact h.steers_still rfl rfl rfl (by simp [Machine.openCalls, hs]) rfl
  -- From here on the memory is set up.
  obtain ⟨memory, hs⟩ := h.ready (by omega)
  have ho := Machine.openCalls_ready hs
  rcases hl.behind h0 hi with hplain | rfl | ⟨hfirst, hfit⟩
  · exact h.steers_plain hs hplain hc
  · simp only [Machine.carryOut, Machine.setSafe, hs, Store.setSafe, Machine.attemptMemory, Prod.mk.injEq,
      and_true] at hc
    subst hc
    exact h.steers_still rfl rfl rfl ho.symm rfl
  · cases inst with
    | setup | safeMode | popup | halt => exact absurd hfit id
    | pause =>
      simp only [Machine.carryOut, Prod.mk.injEq, and_true] at hc
      subst hc
      have hk := m.keeps_pause
      exact h.steers_still hk.program hk.pc (hk.store.trans hs) ho.symm rfl
    | jump count target label => exact h.steers_jump hs hfirst hfit hc
    | call count target label => exact h.steers_call hs hpc hfirst hfit hc
    | ret => exact h.steers_ret hs hc
    | finish =>
      simp only [Machine.carryOut, Prod.mk.injEq, and_true] at hc
      subst hc
      exact h.steers_still rfl rfl hs ho.symm rfl
    | _ => exact h.steers_plain hs rfl hc

end

/-- One instruction keeps the machine contained, and behind the initial instructions it stays behind
them. -/
theorem step (hl : Laid safe program) (h : Contained safe program m) {index : Nat} {inst : Instruction}
    (hpc : m.pc = index) (hi : program[index]? = some inst) (hc : m.carryOut (some index) inst = (n, none)) :
    Contained safe program (Run.advanced n index inst) ∧ n.pc + 1 ≠ 0 ∧
      (Standard.first safe ≤ m.pc → Standard.first safe ≤ n.pc + 1) := by
  obtain ⟨hp, memory, hs, hd, ht, hcase⟩ := h.steers hl hpc hi hc
  have hn := h.nonneg
  have h2 := Standard.two_le_first safe
  have hlt := (Array.getElem?_eq_some_iff.mp hi).1
  have ho : (Run.advanced n index inst).openCalls = memory.calls := Machine.openCalls_ready hs
  have hpc' : (Run.advanced n index inst).pc = n.pc + 1 := rfl
  -- An open call was open before, or it is the one that has just been carried out.
  have hcalls : ∀ entry ∈ memory.calls, IsCallEntry safe program entry := by
    intro entry he
    rcases hcase with ⟨_, hsame⟩ | ⟨hfirst, _⟩ | ⟨rfl, hopen⟩
    · exact h.calls entry (hsame ▸ he)
    · rw [ht] at he
      cases inst with
      | call count target label =>
        rcases List.mem_cons.mp he with rfl | he
        · exact ⟨by omega, index, count, target, label, rfl, hi⟩
        · exact h.calls entry he
      | ret => exact h.calls entry (List.mem_of_mem_tail he)
      | _ => exact h.calls entry he
    · exact h.calls entry (by rw [hopen]; exact List.mem_cons_of_mem _ he)
  -- The next place is the one behind, the target, or the one behind the newest open call.
  have hbounds : 0 < n.pc + 1 ∧ n.pc + 1 ≤ program.size ∧
      (Standard.first safe ≤ m.pc → Standard.first safe ≤ n.pc + 1) ∧
      (n.pc + 1 < Standard.first safe → memory.calls = []) := by
    rcases hcase with ⟨hsame, hkept⟩ | ⟨_, hfit, htarget⟩ | ⟨_, hopen⟩
    · exact ⟨by omega, by omega, by omega, fun hlow => hkept.trans (h.early (by omega))⟩
    · obtain ⟨hlow, hhigh⟩ := hfit.target_bounds htarget
      exact ⟨by omega, hhigh, fun _ => hlow, fun he => absurd hlow (by omega)⟩
    · obtain ⟨hlow, origin, _, _, _, horigin, hcall⟩ := h.calls n.pc (by rw [hopen]; simp)
      have hsize := (Array.getElem?_eq_some_iff.mp hcall).1
      exact ⟨by omega, by omega, by omega, by omega⟩
  obtain ⟨hpos, hsize, hkeep, hearly⟩ := hbounds
  refine ⟨⟨hp, by omega, by omega, by omega, fun _ => ⟨memory, hs⟩, ho ▸ hcalls, ?_, ho ▸ hd⟩, by omega, hkeep⟩
  intro he
  exact ho.trans (hearly (by omega))

end Contained

namespace Run

variable {safe : Bool} {program : Array Instruction} {r r' : Run}

/-- One turn keeps the machine contained. It carries out the instruction at the program counter, and
behind the initial instructions it stays behind them. -/
theorem Turn.contained {index : Nat} {inst : Instruction} (hl : Laid safe program) (t : r.Turn index inst r')
    (h : Contained safe program r.machine) :
    r.machine.pc = index ∧ program[index]? = some inst ∧ Contained safe program r'.machine ∧
      r'.machine.pc ≠ 0 ∧ (Standard.first safe ≤ r.machine.pc → Standard.first safe ≤ r'.machine.pc) := by
  obtain ⟨hf, _, m, m', hk, hc, he⟩ := t.carries
  obtain ⟨hpc, hi⟩ := pc_of_fetch? h.nonneg hf
  rw [h.loaded] at hi
  have hstep := (h.of_keeps hk).step hl (hk.pc.trans hpc) hi hc
  rw [hk.pc] at hstep
  rw [he]
  exact ⟨hpc, hi, hstep⟩

theorem Leads.contained {executed : List (Nat × Instruction)} (hl : Laid safe program)
    (hr : r.Leads executed r') (h : Contained safe program r.machine) : Contained safe program r'.machine := by
  induction hr with
  | start => exact h
  | turn _ t ih => exact (t.contained hl ih).2.2.1

theorem Leads.stays_behind {executed : List (Nat × Instruction)} (hl : Laid safe program)
    (hr : r.Leads executed r') (h : Contained safe program r.machine)
    (hf : Standard.first safe ≤ r.machine.pc) : Standard.first safe ≤ r'.machine.pc := by
  induction hr with
  | start => exact hf
  | turn hr t ih => exact (t.contained hl (hr.contained hl h)).2.2.2.2 ih

/-- Setting up stands at the start alone, and no turn comes back there. -/
theorem Leads.setups {executed : List (Nat × Instruction)} (hl : Laid safe program) (hr : r.Leads executed r')
    (h : Contained safe program r.machine) :
    (executed.countP fun e => e.2 = .setup) ≤ 1 ∧ (r'.machine.pc = 0 → executed = []) := by
  induction hr with
  | start => simp
  | @turn executed index inst r' r'' hr t ih =>
    obtain ⟨hpc, hi, _, hne, _⟩ := t.contained hl (hr.contained hl h)
    refine ⟨?_, fun h0 => absurd h0 hne⟩
    by_cases hs : inst = .setup
    · -- Only the first instruction sets up, so nothing was carried out before.
      have h0 : index = 0 := by
        by_cases hz : index = 0
        · exact hz
        · rcases hl.behind hz hi with hp | hp | ⟨_, hp⟩
          · simp [hs, Instruction.isPlain] at hp
          · simp [hs] at hp
          · simp [hs, Instruction.Fits] at hp
      have he := ih.2 (by omega)
      simp [he, hs]
    · simpa [List.countP_append, hs] using ih.1

end Run

theorem contained_start (safe : Bool) {program : Array Instruction} {m : Machine} (h : m.program = program)
    (actions : List Action) : Contained safe program (m.opening actions).machine := by
  have hc : (m.opening actions).machine.openCalls = [] := rfl
  refine ⟨h, Int.le_refl _, Int.natCast_nonneg _, fun _ => rfl, fun h => absurd rfl h, ?_, fun _ => hc, ?_⟩
  · simp [hc]
  · simp [hc, Memory.callLimit]

theorem contained_opening (safe : Bool) (program : Array Instruction) (m : Machine) (actions : List Action) :
    Contained safe program ((m.load program).opening actions).machine :=
  contained_start safe (rfl : (m.load program).program = program) actions

/-- A program that is laid out is not empty, so its execution is a loop. -/
theorem Laid.execute_eq {safe : Bool} {program : Array Instruction} (hl : Laid safe program) (m : Machine)
    (budget : Nat) (actions : List Action) :
    (m.load program).execute budget actions = Run.loop budget ((m.load program).opening actions) := by
  apply Machine.execute_eq
  exact Nat.lt_of_lt_of_le (Nat.lt_of_lt_of_le Nat.zero_lt_two (Standard.two_le_first safe)) hl.size

namespace Run

variable {safe : Bool} {program : Array Instruction} {r r' : Run}

/-- A turn of a contained run under pausing, resuming and stopping ends it only by returning or by
waiting at the gate. -/
theorem turn_ends_orderly {outcome : Outcome} (h : Contained safe program r.machine)
    (ha : ∀ a ∈ r.pending, a.act.isControl = true) (ht : r.turn = (r', some outcome)) :
    outcome = .returned ∨ outcome = .paused := by
  rcases turn_eq_some ht with ⟨_, ho, _⟩ | hg | ⟨g, _, hk, ⟨hf, hlt, _⟩ | ⟨ho, _⟩ | ⟨_, _, _, _, _, _, _, ho, _⟩⟩
  · exact .inl ho
  · have hp := (passGate_control (r := r.announce) (by simpa only [announce_pending] using ha)).1
    exact .inr (by simpa [hg] using hp)
  · -- Inside the program there is always an instruction to fetch.
    obtain ⟨index, hi⟩ := Int.eq_ofNat_of_zero_le (h.of_keeps hk).nonneg
    have hget : g.machine.program[index]? = some g.machine.program[index] := by simp
    rw [fetch?_of_nonneg hi hget] at hf
    simp at hf
  · exact .inl ho
  · exact .inl ho

end Run

abbrev Standard.delay : Number := .float (Decimal.nearest false ⟨5, -1⟩)

namespace Device

variable {d : Device}

/-- A device without faults carries out each call. -/
theorem perform_faultless (hf : d.faults = []) (call : DeviceCall) (effect : Device → Device) :
    d.perform call effect = (effect d, none) := by
  have hcount : d.countCall call = d := by
    simp only [countCall, hf, List.map_nil]
    rw [← hf]
  simp [perform, failsNext, hf, hcount]

theorem sleep_faultless (hf : d.faults = []) {t : Number} (hnan : t ≠ .float .nan)
    (hrange : sleepOutOfRange t = false) (hneg : t.lt (.int 0) = false) :
    d.sleep t = (d.note (.sleep t), none) := by
  simp only [sleep, hnan, hrange, hneg, Bool.false_eq_true, if_false]
  exact perform_faultless hf _ _

end Device

private theorem sleep_delay {d : Device} (hf : d.faults = []) :
    d.sleep Standard.delay = (d.note (.sleep Standard.delay), none) :=
  Device.sleep_faultless hf (by decide +kernel) (by decide +kernel) (by decide +kernel)

namespace Machine

def settled (m : Machine) (program : Array Instruction) : Machine :=
  Run.advanced
    { Run.advanced (m.load program).start.setUp 0 .setup with device := m.device.note (.sleep Standard.delay) }
    1 (.wait (.literal Standard.delay))

/-- The machine when the initial instructions are behind it. -/
def primed (m : Machine) (safe : Bool) (program : Array Instruction) : Machine :=
  if safe then
    Run.advanced ({ m.settled program with store := .ready { safe := true } }.say .info "Safe mode is enabled") 2
      (.safeMode true)
  else m.settled program

theorem primed_device (m : Machine) (safe : Bool) (program : Array Instruction) :
    (m.primed safe program).device = m.device.note (.sleep Standard.delay) := by
  cases safe <;> rfl

end Machine

namespace Run

variable {program : Array Instruction} {m : Machine}

/-- Without actions and faults a run settles in two turns. -/
private theorem leads_settled {safe : Bool} (hl : Laid safe program) (hf : m.device.faults = []) :
    ∃ executed r, ((m.load program).opening []).Leads executed r ∧ executed.length = 2 ∧ r.pending = [] ∧
      r.machine = m.settled program := by
  have h1 : ((m.load program).opening []).turn = ({ ((m.load program).opening []).passed with
      machine := Run.advanced (m.load program).start.setUp 0 .setup }, none) := by
    rw [turn_carries rfl rfl rfl rfl hl.setup rfl]
    rfl
  have t1 := turn_of_fetch (congrArg Prod.snd h1) (@fetch?_of_nonneg _ 0 _ rfl hl.setup)
  rw [h1] at t1
  let r : Run := { ((m.load program).opening []).passed with
    machine := Run.advanced (m.load program).start.setUp 0 .setup }
  have h2 : r.turn = ({ r.passed with machine := m.settled program }, none) := by
    have hsleep : r.machine.device.sleep Standard.delay = _ := sleep_delay hf
    rw [@turn_carries r rfl rfl rfl 1 _ rfl hl.wait rfl]
    simp only [Machine.carryOut, Machine.value, Machine.attempt, Machine.onDevice, hsleep, Option.map_none]
    rfl
  have t2 := turn_of_fetch (congrArg Prod.snd h2) (@fetch?_of_nonneg _ 1 _ rfl hl.wait)
  rw [h2] at t2
  exact ⟨_, _, .turn (.turn .start t1) t2, rfl, rfl, rfl⟩

/-- Without actions and faults each initial instruction takes a turn. -/
theorem leads_primed {safe : Bool} (hl : Laid safe program) (hf : m.device.faults = []) :
    ∃ executed r, ((m.load program).opening []).Leads executed r ∧ executed.length = Standard.first safe ∧
      r.pending = [] ∧ r.machine = m.primed safe program := by
  obtain ⟨executed, r, hr, hlen, hp, hm⟩ := leads_settled hl hf
  cases safe with
  | false => exact ⟨executed, r, hr, hlen, hp, hm⟩
  | true =>
    have hturn : r.turn = ({ r.passed with machine := m.primed true program }, none) := by
      rw [@turn_carries r (by rw [hm]; rfl) hp (by rw [hm]; rfl) 2 (.safeMode true) (by rw [hm]; rfl)
        (by rw [hm]; exact hl.safeMode) rfl, hm]
      rfl
    have t := turn_of_fetch (congrArg Prod.snd hturn)
      (@fetch?_of_nonneg r 2 (.safeMode true) (by rw [hm]; rfl) (by rw [hm]; exact hl.safeMode))
    rw [hturn] at t
    exact ⟨_, _, .turn hr t, by rw [List.length_append, hlen]; rfl, hp, rfl⟩

end Run

/-- Without actions and faults an execution is a loop from the machine behind the initial instructions. -/
theorem Machine.execute_primed {safe : Bool} {program : Array Instruction} (hl : Laid safe program) {m : Machine}
    (hf : m.device.faults = []) :
    ∃ r : Run, r.pending = [] ∧ r.machine = m.primed safe program ∧ Contained safe program r.machine ∧
      ∀ budget, (m.load program).execute (budget + Standard.first safe) [] = Run.loop budget r := by
  obtain ⟨executed, r, hr, hlen, hp, hm⟩ := Run.leads_primed hl hf
  refine ⟨r, hp, hm, hr.contained hl (contained_opening safe program m []), fun budget => ?_⟩
  rw [hl.execute_eq, ← hlen, hr.loop_eq]

/-- A compiled script never leaves its program, whatever is paused, resumed or stopped on the way and
whichever calls of the device fail. All targets lie behind the initial instructions; at every loop head
the program counter lies in the program, and once behind the initial instructions it stays there, so
the memory is set up at most once; and a run that is not cut off returns or waits at the gate. -/
theorem compiled_run_stays_in_program {safe : Bool} {source : String} {program : Array Instruction}
    (h : (compile safe source).1 = .program program) (m : Machine) (actions : List Action)
    (ha : ∀ a ∈ actions, a.act.isControl = true) :
    (∀ inst ∈ program, ∀ target, inst.target? = some target →
      (Standard.initial safe).length ≤ target ∧ target ≤ program.size) ∧
    (∀ executed r, ((m.load program).opening actions).Leads executed r →
      (0 ≤ r.machine.pc ∧ r.machine.pc ≤ program.size) ∧
      (executed.countP fun e => e.2 = .setup) ≤ 1 ∧
      ((Standard.initial safe).length ≤ r.machine.pc → ∀ later r', r.Leads later r' →
        (Standard.initial safe).length ≤ r'.machine.pc)) ∧
    ∀ budget, ((m.load program).execute budget actions).2 = .returned ∨
      ((m.load program).execute budget actions).2 = .budget ∨
      ((m.load program).execute budget actions).2 = .paused := by
  have hl := laid_of_compile h
  have hopen := contained_opening safe program m actions
  refine ⟨?_, ?_, ?_⟩
  · intro inst hi target ht
    obtain ⟨index, hsize, rfl⟩ := Array.getElem_of_mem hi
    have hget : program[index]? = some program[index] := by simp
    by_cases h0 : index = 0
    · subst h0
      obtain he : program[0] = .setup := by simpa [hget] using hl.setup
      simp [he, Instruction.target?] at ht
    · rcases hl.behind h0 hget with hp | hp | ⟨_, hfit⟩
      · cases hinst : program[index] <;> simp_all [Instruction.target?, Instruction.isPlain]
      · simp [hp, Instruction.target?] at ht
      · exact hfit.target_bounds ht
  · intro executed r hr
    have hc := hr.contained hl hopen
    exact ⟨⟨hc.nonneg, hc.le_size⟩, (hr.setups hl hopen).1, fun hf later r' hlater =>
      hlater.stays_behind hl hc hf⟩
  · intro budget
    have hpos : 0 < (m.load program).program.size := Nat.lt_of_lt_of_le
      (Nat.lt_of_lt_of_le Nat.zero_lt_two (Standard.two_le_first safe)) hl.size
    rw [Machine.execute_eq hpos]
    refine @Run.loop_shows
      (fun r => Contained safe program r.machine ∧ ∀ a ∈ r.pending, a.act.isControl = true)
      (fun _ outcome => outcome = .returned ∨ outcome = .budget ∨ outcome = .paused) ?_ ?_ ?_ budget _
      ⟨hopen, ha⟩
    · rintro r r' ⟨hc, hp⟩ ht
      obtain ⟨index, inst, t⟩ := Run.turn_eq_none ht
      exact ⟨(t.contained hl hc).2.2.1, t.control hp⟩
    · rintro r r' outcome ⟨hc, hp⟩ ht
      rcases Run.turn_ends_orderly hc hp ht with ho | ho
      · exact .inl ho
      · exact .inr (.inr ho)
    · exact fun _ _ => .inr (.inl rfl)

/-- A loop and a call, paused and stopped on the way, with a click that fails. -/
theorem looping_script_stays_in_program :
    let body : List Instruction := [.leftClick, .jump (.literal (.float (Binary64.ofInt 2))) 3 (.named "a"),
      .call Operand.absent 7 (.named "f"), .finish, .ret]
    let program := (Standard.initial true ++ body).toArray
    let m : Machine := { device := { faults := [(.leftClick, 1)] } }
    let actions : List Action := [⟨.pause, some 3⟩, ⟨.resume, none⟩, ⟨.stop, some 9⟩]
    (compile true "label a\nclick\njump a 2\ncall f\nend\nlabel f\nreturn").1 = .program program ∧
    (∀ a ∈ actions, a.act.isControl = true) ∧
    ∀ executed r, ((m.load program).opening actions).Leads executed r →
      0 ≤ r.machine.pc ∧ r.machine.pc ≤ program.size := by
  intro body program m actions
  have hc : (compile true "label a\nclick\njump a 2\ncall f\nend\nlabel f\nreturn").1 = .program program := by
    decide +kernel
  have ha : ∀ a ∈ actions, a.act.isControl = true := by decide
  exact ⟨hc, ha, fun executed r hr => ((compiled_run_stays_in_program hc m actions ha).2.1 executed r hr).1⟩

end PointerScript
