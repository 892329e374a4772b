import Mathlib.Data.List.Infix
import PointerScript.Proofs.ControlFlow

/-! Going back. Where the pointer is and the places in the history form one stack: a movement puts the
place it goes to on top, going back takes the top away, and no other instruction touches it. So going
back undoes movements like brackets that are closed. -/

namespace PointerScript

namespace Instruction

/-- Whether an instruction moves the pointer and puts the place it was at into the history. -/
def isMovement : Instruction → Bool
  | move _ _ _ | moveRel _ _ _ | center => true
  | _ => false

end Instruction

def movements (executed : List (Nat × Instruction)) : Nat :=
  executed.countP fun e => e.2.isMovement

def retreats (executed : List (Nat × Instruction)) : Nat :=
  executed.countP fun e => e.2 = .goBack

theorem movements_append (executed : List (Nat × Instruction)) (index : Nat) (inst : Instruction) :
    movements (executed ++ [(index, inst)]) = movements executed + if inst.isMovement then 1 else 0 := by
  simp only [movements, List.countP_append, List.countP_singleton]

theorem retreats_append (executed : List (Nat × Instruction)) (index : Nat) (inst : Instruction) :
    retreats (executed ++ [(index, inst)]) = retreats executed + if inst = .goBack then 1 else 0 := by
  simp only [retreats, List.countP_append, List.countP_singleton, decide_eq_true_eq]

/-- Whether instructions go back as often as they move, and at no point more often so far. -/
structure Bracketed (executed : List (Nat × Instruction)) : Prop where
  never_below : ∀ front, front <+: executed → retreats front ≤ movements front
  even : retreats executed = movements executed

namespace Device

variable {d : Device}

private theorem perform_pos (call : DeviceCall) (e : Event) :
    (d.perform call fun d => d.note e).1.pos = d.pos := by
  unfold perform
  split <;> rfl

theorem sleep_pos (t : Number) : (d.sleep t).1.pos = d.pos := by
  unfold sleep
  split
  · rfl
  · split
    · rfl
    · split
      · rfl
      · exact perform_pos .sleep (.sleep t)

theorem moveTo_pos {target : Point} {duration : Number} (h : (d.moveTo target duration).2 = none) :
    (d.moveTo target duration).1.pos = target := by
  unfold moveTo perform at h ⊢
  split at h
  · exact absurd h (by simp)
  · rename_i hn
    rw [if_neg hn]

end Device

namespace Machine

/-- The places by which the pointer has come: the one it is at and those in the history, the newest
first. -/
def trail (m : Machine) : List Point :=
  match m.store with
  | .ready memory => m.device.pos :: memory.history
  | _ => [m.device.pos]

variable {m n : Machine} {memory memory' : Memory} {index : Nat} {inst : Instruction}

theorem trail_ready (hs : m.store = .ready memory) : m.trail = m.device.pos :: memory.history := by
  rw [trail, hs]

theorem trail_keeps (hk : m.Keeps n) : n.trail = m.trail := by
  rw [trail, trail, hk.store, hk.pos]

theorem trail_congr (hs : m.store = .ready memory) (hn : n.store = .ready memory')
    (hp : n.device.pos = m.device.pos) (hh : memory'.history = memory.history) : n.trail = m.trail := by
  rw [trail_ready hs, trail_ready hn, hp, hh]

private theorem attempt_store {α : Type} {result : Except Fault α} {next : α → Machine × Option Fault}
    (h : ∀ a, (next a).1.store = m.store) : (m.attempt result next).1.store = m.store := by
  cases result with
  | ok a => exact h a
  | error fault => rfl

private theorem attemptMemory_store {α : Type} {result : Except MemoryFault α}
    {next : α → Machine × Option Fault} (h : ∀ a, (next a).1.store = m.store) :
    (m.attemptMemory result next).1.store = m.store := by
  cases result with
  | ok a => exact h a
  | error fault => rfl

/-- What remembers the place of the pointer first leaves it right below the top. -/
private theorem trail_remember (hs : m.store = .ready memory) {next : Machine → Machine × Option Fault}
    (hnext : ∀ k, (next k).1.store = k.store) :
    (m.remember next).1.trail = (m.remember next).1.device.pos :: m.trail := by
  have hstore : (m.remember next).1.store = .ready (memory.pushPlace m.device.pos) := by
    simp only [remember, attemptMemory, hs, Store.memory]
    exact hnext _
  rw [trail_ready hstore, trail_ready hs]
  rfl

theorem trail_movement (hs : m.store = .ready memory) (hm : inst.isMovement = true) (index : Option Nat) :
    (m.carryOut index inst).1.trail = (m.carryOut index inst).1.device.pos :: m.trail := by
  cases inst with
  | center => exact trail_remember hs fun k => rfl
  | move x y time =>
    apply trail_remember hs
    intro k
    apply attempt_store
    intro vx
    apply attempt_store
    intro vy
    apply attempt_store
    intro place
    apply attemptMemory_store
    intro offset
    rfl
  | moveRel x y time =>
    apply trail_remember hs
    intro k
    apply attempt_store
    intro vx
    apply attempt_store
    intro vy
    rfl
  | _ => simp [Instruction.isMovement] at hm

theorem goBack_empty (hs : m.store = .ready memory) (hh : memory.history = []) (index : Option Nat) :
    m.carryOut index .goBack = (m.say .debug "Movement history is empty, cannot go back.", none) := by
  simp only [carryOut, goBack, attemptMemory, hs, Store.memory, Memory.popPlace?, hh]

/-- Going back takes the top away, if there is a place below it. -/
theorem trail_goBack (hs : m.store = .ready memory) (hh : memory.history ≠ []) {index : Option Nat}
    (hc : m.carryOut index .goBack = (n, none)) : n.trail = m.trail.tail := by
  obtain ⟨place, earlier, he⟩ := List.exists_cons_of_ne_nil hh
  simp only [carryOut, goBack, attemptMemory, hs, Store.memory, Memory.popPlace?, he, onDevice, Prod.mk.injEq,
    Option.map_eq_none_iff] at hc
  obtain ⟨rfl, hnone⟩ := hc
  rw [trail_ready hs, he]
  exact congrArg (· :: earlier) (Device.moveTo_pos hnone)

private theorem trail_click (hs : m.store = .ready memory) (call : DeviceCall) (e : Event) :
    (m.click fun d => d.perform call fun d => d.note e).1.trail = m.trail := by
  simp only [click, attemptMemory, hs, Store.safe]
  split
  · rfl
  · exact trail_congr hs hs (Device.perform_pos call e) rfl

private theorem trail_attempt {α : Type} {result : Except Fault α} {next : α → Machine × Option Fault}
    (h : ∀ a, (next a).1.trail = m.trail) : (m.attempt result next).1.trail = m.trail := by
  cases result with
  | ok a => exact h a
  | error fault => rfl

private theorem trail_store (hs : m.store = .ready memory) (name : String) (v : Number) :
    (m.attemptMemory (m.store.memory .vars) fun memory => (m.withMemory (memory.set name v), none)).1.trail =
      m.trail := by
  simp only [attemptMemory, hs, Store.memory]
  exact trail_congr hs rfl rfl rfl

private theorem trail_jump (index : Option Nat) (count : Operand) (target : Int) :
    (m.jump index count target).1.trail = m.trail := by
  rcases m.jump_cases index count target with ⟨fault, he⟩ | ⟨visits, he⟩ | ⟨visits, he⟩ <;> rw [he] <;> rfl

/-- All other instructions leave the trail alone. -/
theorem trail_other (hs : m.store = .ready memory) (hset : inst ≠ .setup) (hm : inst.isMovement = false)
    (hb : inst ≠ .goBack) (index : Option Nat) : (m.carryOut index inst).1.trail = m.trail := by
  cases inst with
  | setup => exact absurd rfl hset
  | goBack => exact absurd rfl hb
  | center | move | moveRel => simp [Instruction.isMovement] at hm
  | setOffset | clearOffset =>
    simp only [carryOut, setOffset, attemptMemory, hs, Store.setOffset]
    exact trail_congr hs rfl rfl rfl
  | leftClick => exact trail_click hs .leftClick .leftClick
  | rightClick => exact trail_click hs .rightClick .rightClick
  | doubleClick => exact trail_click hs .doubleClick .doubleClick
  | wait time =>
    apply trail_attempt
    intro t
    exact trail_congr hs hs (Device.sleep_pos t) rfl
  | pause => exact trail_keeps m.keeps_pause
  | safeMode on =>
    simp only [carryOut, setSafe, attemptMemory, hs, Store.setSafe]
    exact trail_congr hs rfl rfl rfl
  | popup text title refused => cases refused <;> rfl
  | jump count target label => exact trail_jump index count target
  | call count target label =>
    have hopened : (m.withCalls memory (m.pc :: memory.calls)).trail = m.trail := trail_congr hs rfl rfl rfl
    simp only [carryOut, call_eq hs]
    split
    · exact hopened
    · exact (trail_jump index count target).trans hopened
  | ret =>
    simp only [carryOut, ret, attemptMemory, hs, Store.memory, Memory.popCall?]
    cases memory.calls with
    | nil => rfl
    | cons last earlier =>
      dsimp only
      split <;> exact trail_congr hs rfl rfl rfl
  | print | finish | halt => rfl
  | printVar name =>
    simp only [carryOut, printVar, attemptMemory, hs, Store.offset, Store.memory]
    split
    · exact trail_attempt fun text => rfl
    · apply trail_attempt
      intro value
      exact trail_attempt fun text => rfl
  | setVar name value =>
    have hne : m.store ≠ .absent := by simp [hs]
    simp only [carryOut, setVar, if_neg hne]
    apply trail_attempt
    intro v
    exact trail_store hs name v
  | varMath name left right code =>
    apply trail_attempt
    intro v
    exact trail_store hs name v

end Machine

namespace Run

variable {safe : Bool} {program : Array Instruction} {r r' : Run}

/-- What a turn does to the trail once the memory is set up. -/
theorem Turn.trail_cases {index : Nat} {inst : Instruction} (hl : Laid safe program) (t : r.Turn index inst r')
    (h : Contained safe program r.machine) (hpc : r.machine.pc ≠ 0) :
    (inst.isMovement = true ∧ ∃ place, r'.machine.trail = place :: r.machine.trail) ∨
    (inst = .goBack ∧ (r.machine.trail.tail = [] ∨ r'.machine.trail = r.machine.trail.tail)) ∨
    (inst.isMovement = false ∧ inst ≠ .goBack ∧ r'.machine.trail = r.machine.trail) := by
  obtain ⟨hindex, hi, _⟩ := t.contained hl h
  obtain ⟨_, _, m, n, hk, hc, he⟩ := t.carries
  obtain ⟨memory, hs⟩ := h.ready hpc
  have hm : m.store = .ready memory := hk.store.trans hs
  have hn : r'.machine.trail = n.trail := by rw [he]; rfl
  rw [hn, ← Machine.trail_keeps hk]
  by_cases hmove : inst.isMovement = true
  · have hpush := Machine.trail_movement hm hmove (some index)
    rw [hc] at hpush
    exact .inl ⟨hmove, _, hpush⟩
  by_cases hback : inst = .goBack
  · subst hback
    refine .inr (.inl ⟨rfl, ?_⟩)
    by_cases hh : memory.history = []
    · left
      rw [Machine.trail_ready hm, hh]
      rfl
    · exact .inr (Machine.trail_goBack hm hh hc)
  · have hset : inst ≠ .setup := by
      rintro rfl
      rcases hl.behind (by omega) hi with hp | hp | ⟨_, hfit⟩
      · simp [Instruction.isPlain] at hp
      · simp at hp
      · exact hfit
    have hsame := Machine.trail_other hm hset (by simpa using hmove) hback (some index)
    rw [hc] at hsame
    exact .inr (.inr ⟨by simpa using hmove, hback, hsame⟩)

/-- As long as going back does not outnumber the movements, the trail from before lies below as many places
as there are movements not undone yet. -/
theorem Leads.trail_drop {segment : List (Nat × Instruction)} (hl : Laid safe program) (hr : r.Leads segment r')
    (h : Contained safe program r.machine) (hpc : r.machine.pc ≠ 0)
    (hb : ∀ front, front <+: segment → retreats front ≤ movements front) :
    r'.machine.pc ≠ 0 ∧ r'.machine.trail.drop (movements segment - retreats segment) = r.machine.trail := by
  induction hr with
  | start => exact ⟨hpc, rfl⟩
  | @turn executed index inst r1 r2 hr t ih =>
    have hc := hr.contained hl h
    obtain ⟨hpc1, htrail⟩ := ih fun front hf => hb front (hf.trans (List.prefix_append _ _))
    refine ⟨(t.contained hl hc).2.2.2.1, ?_⟩
    have hsofar := hb executed (List.prefix_append _ _)
    have hnow := hb _ (List.prefix_refl _)
    rw [movements_append, retreats_append] at hnow ⊢
    rcases t.trail_cases hl hc hpc1 with ⟨hm, place, he⟩ | ⟨rfl, hcase⟩ | ⟨hm, hback, he⟩
    · have hne : inst ≠ .goBack := by
        rintro rfl
        simp [Instruction.isMovement] at hm
      rw [he, if_pos hm, if_neg hne, Nat.add_zero (retreats executed), Nat.sub_add_comm hsofar, List.drop_succ_cons]
      exact htrail
    · have hm : Instruction.goBack.isMovement ≠ true := by decide
      rw [if_neg hm, if_pos rfl, Nat.add_zero (movements executed)] at hnow ⊢
      obtain ⟨left, hleft⟩ := Nat.exists_eq_add_of_le hnow
      rw [hleft, Nat.add_assoc, Nat.add_sub_cancel_left, ← List.drop_drop, List.drop_one] at htrail
      rw [hleft, Nat.add_sub_cancel_left]
      rcases hcase with hempty | he
      · -- The trail from before lies below, so there is a place to go back to.
        rw [hempty, List.drop_nil] at htrail
        obtain ⟨memory, hs⟩ := h.ready hpc
        rw [Machine.trail_ready hs] at htrail
        exact absurd htrail (by simp)
      · rw [he]
        exact htrail
    · rw [he, if_neg (by simp [hm]), if_neg hback]
      exact htrail

end Run

/-- Going back undoes movements in the order of brackets. Behind the initial instructions of a compiled
script, whatever the user does and whichever instructions come between, a stretch of the run that goes back
as often as it moves, and never more often so far, leaves the pointer and the history as they were. With an
empty history going back does nothing but say so. -/
theorem going_back_undoes_movements {safe : Bool} {source : String} {program : Array Instruction}
    (h : (compile safe source).1 = .program program) (m : Machine) (actions : List Action)
    {executed segment : List (Nat × Instruction)} {r r' : Run}
    (hr : ((m.load program).opening actions).Leads executed r)
    (hfirst : (Standard.initial safe).length ≤ r.machine.pc)
    (hsegment : r.Leads segment r') (hb : Bracketed segment) :
    ∃ memory memory', r.machine.store = .ready memory ∧ r'.machine.store = .ready memory' ∧
      r'.machine.device.pos = r.machine.device.pos ∧ memory'.history = memory.history ∧
      (memory'.history = [] → ∀ n, r'.machine.Keeps n → ∀ index, n.carryOut index .goBack =
        (n.say .debug "Movement history is empty, cannot go back.", none)) := by
  have hl := laid_of_compile h
  have hc := hr.contained hl (contained_opening safe program m actions)
  have hpc : r.machine.pc ≠ 0 := by
    have : 2 ≤ r.machine.pc := Int.le_trans (Int.ofNat_le.mpr (Standard.two_le_first safe)) hfirst
    omega
  obtain ⟨hpc', htrail⟩ := hsegment.trail_drop hl hc hpc hb.never_below
  obtain ⟨memory, hs⟩ := hc.ready hpc
  obtain ⟨memory', hs'⟩ := (hsegment.contained hl hc).ready hpc'
  rw [hb.even, Nat.sub_self, List.drop_zero, Machine.trail_ready hs, Machine.trail_ready hs',
    List.cons.injEq] at htrail
  refine ⟨memory, memory', hs, hs', htrail.1, htrail.2, ?_⟩
  intro hempty n hk index
  exact Machine.goBack_empty (hk.store.trans hs') hempty index

/-- A movement inside a called function is undone there, and the one before the call behind it. -/
theorem nested_movements_are_undone :
    let one : Operand := .literal (.float (Binary64.ofInt 1))
    let away : Instruction := .move one (.operand one) (.float (.zero false))
    let aside : Instruction := .moveRel one (.operand one) (.float (.zero false))
    let call : Instruction := .call Operand.absent 6 (.named "f")
    let program := (Standard.initial false ++ [away, call, .goBack, .finish, aside, .goBack, .ret]).toArray
    let r0 := (({} : Machine).load program).opening []
    let r := r0.turn.1.turn.1
    let r' := r.turn.1.turn.1.turn.1.turn.1.turn.1.turn.1
    let segment := [(2, away), (3, call), (6, aside), (7, .goBack), (8, .ret), (4, .goBack)]
    (compile false "move 1 1\ncall f\ngoback\nend\nlabel f\nmoverel 1 1\ngoback\nreturn").1 = .program program ∧
    r0.Leads [(0, .setup), (1, .wait (.literal Standard.delay))] r ∧
    (Standard.initial false).length ≤ r.machine.pc ∧ r.Leads segment r' ∧ Bracketed segment ∧
    r'.machine.device.pos = r.machine.device.pos := by
  intro one away aside call program r0 r r' segment
  have hc : (compile false "move 1 1\ncall f\ngoback\nend\nlabel f\nmoverel 1 1\ngoback\nreturn").1 =
      .program program := by decide +kernel
  have t0 : r0.Turn 0 .setup r0.turn.1 := Run.turn_of_fetch (by decide +kernel) (by decide +kernel)
  have t1 : r0.turn.1.Turn 1 (.wait (.literal Standard.delay)) r :=
    Run.turn_of_fetch (by decide +kernel) (by decide +kernel)
  have t2 : r.Turn 2 away r.turn.1 := Run.turn_of_fetch (by decide +kernel) (by decide +kernel)
  have t3 : r.turn.1.Turn 3 call _ := Run.turn_of_fetch (by decide +kernel) (by decide +kernel)
  have t4 : r.turn.1.turn.1.Turn 6 aside _ := Run.turn_of_fetch (by decide +kernel) (by decide +kernel)
  have t5 : r.turn.1.turn.1.turn.1.Turn 7 .goBack _ := Run.turn_of_fetch (by decide +kernel) (by decide +kernel)
  have t6 : r.turn.1.turn.1.turn.1.turn.1.Turn 8 .ret _ := Run.turn_of_fetch (by decide +kernel) (by decide +kernel)
  have t7 : r.turn.1.turn.1.turn.1.turn.1.turn.1.Turn 4 .goBack r' :=
    Run.turn_of_fetch (by decide +kernel) (by decide +kernel)
  have hr : r0.Leads [(0, .setup), (1, .wait (.literal Standard.delay))] r := .turn (.turn .start t0) t1
  have hsegment : r.Leads segment r' :=
    .turn (.turn (.turn (.turn (.turn (.turn .start t2) t3) t4) t5) t6) t7
  have hb : Bracketed segment := by
    have hall : ∀ front ∈ segment.inits, retreats front ≤ movements front := by decide +kernel
    exact ⟨fun front hf => hall front ((List.mem_inits front segment).mpr hf), by decide +kernel⟩
  have hfirst : ((Standard.initial false).length : Int) ≤ r.machine.pc := by decide +kernel
  obtain ⟨_, _, _, _, hpos, _⟩ := going_back_undoes_movements hc {} [] hr hfirst hsegment hb
  exact ⟨hc, hr, hfirst, hsegment, hb, hpos⟩

end PointerScript
