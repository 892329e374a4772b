import Mathlib.Data.List.Basic
import PointerScript.Proofs.Recorded.Gestures

/-! What becomes of presses that come at any time. A left press soon behind the press before it takes the last two
instructions of the recording away, whatever they are, and leaves a double click. These are the wait before it and
the click that it repeats only if the press comes late enough to leave a wait and right behind a single left click.
So a recording keeps all clicks and their places exactly if no left press is too early for that. -/

namespace PointerScript

namespace Recording

/-- The wait that is recorded after a gap, if any is. -/
def waitAfter? (gap : Binary64) : Option Binary64 :=
  if leastWait.lt (.float gap) then some (gap.roundPlaces 2) else none

/-- Whether a left press after a gap makes a double click. -/
def isQuick (gap : Binary64) : Bool :=
  (Number.float gap).lt doubleClickGap

def waitCode (wait : Option Binary64) : List Instruction :=
  wait.toList.map fun t => .wait (.literal (.float t))

/-- What a press adds besides its wait. -/
def pressCode (x y : Number) (button : MouseButton) : List Instruction :=
  if button = .other then [] else moveTo x y :: clickOf button

/-- The time that a recording has been without a press. -/
def gapBefore (r : Recording) (p : Press) : Binary64 :=
  p.time.sub r.lastTime

/-- The instructions of a recording and the wait before a press. -/
def waited (r : Recording) (p : Press) : List Instruction :=
  r.instructions.toList ++ waitCode (waitAfter? (r.gapBefore p))

abbrev press (r : Recording) (p : Press) : Recording × Bool :=
  r.onClick p.time p.x p.y p.button true

section

variable {r : Recording}

theorem noteTime_goesOn (ha : r.active = true) (p : Press) :
    ∃ s, r.noteTime p.time = (s, .float (r.gapBefore p)) ∧
      GoesOn r s p.time (waitCode (waitAfter? (r.gapBefore p))) := by
  rw [noteTime, waitAfter?]
  change ∃ s, (if leastWait.lt (.float (r.gapBefore p)) = true then _ else _) = _ ∧ _
  split
  · exact ⟨_, rfl, ha, rfl, by simp [add, waitCode, gapBefore]⟩
  · exact ⟨_, rfl, ha, rfl, by simp [waitCode]⟩

/-- A press that is not a quick left one adds its wait, the movement to its place and its click. -/
theorem press_adds (ha : r.active = true) {p : Press} (h : p.button ≠ .left ∨ isQuick (r.gapBefore p) = false) :
    ∃ r', r.press p = (r', false) ∧
      GoesOn r r' p.time (waitCode (waitAfter? (r.gapBefore p)) ++ pressCode p.x p.y p.button) := by
  obtain ⟨s, hnote, hs⟩ := noteTime_goesOn ha p
  have hadd (code : List Instruction) (message : String) : GoesOn s ((s.add code).say .info message) p.time code :=
    ⟨hs.active, hs.lastTime, by simp [say, add]⟩
  have hcode {button : MouseButton} (hb : button ≠ .other) :
      pressCode p.x p.y button = moveTo p.x p.y :: clickOf button := if_neg hb
  cases hb : p.button with
  | left =>
    have hslow : (Number.float (r.gapBefore p)).lt doubleClickGap = false := h.resolve_left (fun hne => hne hb)
    rw [hcode (by decide)]
    exact ⟨_, by simp [press, onClick, ha, hb, hnote, hslow]; rfl, hs.trans (hadd _ _)⟩
  | right =>
    rw [hcode (by decide)]
    exact ⟨_, by simp [press, onClick, ha, hb, hnote]; rfl, hs.trans (hadd _ _)⟩
  | middle =>
    rw [hcode (by decide)]
    exact ⟨_, by simp [press, onClick, ha, hb, hnote]; rfl, hs.trans (hadd _ _)⟩
  | other => exact ⟨s, by simp [press, onClick, ha, hb, hnote], by simpa [pressCode] using hs⟩

/-- A double click takes the last two instructions away. It fails if there are not so many, and then none is left. -/
theorem doubleClick_takes (place : String) :
    (r.doubleClick place).2 = decide (r.instructions.toList.length < 2) ∧
      (r.doubleClick place).1.active = r.active ∧ (r.doubleClick place).1.lastTime = r.lastTime ∧
      (r.doubleClick place).1.instructions.toList = r.instructions.toList.dropLast.dropLast ++
        if r.instructions.toList.length < 2 then [] else [.doubleClick] := by
  obtain ⟨⟨code⟩, time, active, log⟩ := r
  rcases List.eq_nil_or_concat' code with rfl | ⟨code, last, rfl⟩
  · exact ⟨rfl, rfl, rfl, rfl⟩
  · rcases List.eq_nil_or_concat' code with rfl | ⟨code, first, rfl⟩
    · exact ⟨rfl, rfl, rfl, rfl⟩
    · rw [@doubleClick_append _ code first last (by simp)]
      simp [add, say]

/-- A quick left press takes away the last two of the instructions and its own wait. -/
theorem press_takes (ha : r.active = true) {p : Press} (hl : p.button = .left)
    (hq : isQuick (r.gapBefore p) = true) :
    (r.press p).2 = decide ((r.waited p).length < 2) ∧ (r.press p).1.active = true ∧
      (r.press p).1.lastTime = p.time ∧
      (r.press p).1.instructions.toList = (r.waited p).dropLast.dropLast ++
        if (r.waited p).length < 2 then [] else [.doubleClick] := by
  obtain ⟨s, hnote, hs⟩ := noteTime_goesOn ha p
  have hquick : (Number.float (r.gapBefore p)).lt doubleClickGap = true := hq
  have hpress : r.press p = s.doubleClick (placeText p.x p.y) := by
    simp [press, onClick, ha, hl, hnote, hquick]
  obtain ⟨hfails, hactive, htime, hcode⟩ := @doubleClick_takes s (placeText p.x p.y)
  rw [hs.instructions] at hfails hcode
  rw [hpress]
  exact ⟨hfails, hactive.trans hs.active, htime.trans hs.lastTime, hcode⟩

end

end Recording

open Recording

/-- A click in a recording: the wait before it if there is one, the press it was made with and, for a double click,
the second press. -/
structure Click where
  wait : Option Binary64
  press : Press
  again : Option Press
  deriving DecidableEq

namespace Click

/-- The presses that made a click. -/
def presses (c : Click) : List Press :=
  c.press :: c.again.toList

/-- How a click is recorded: behind its wait and the movement to the place of its first press. -/
def code (c : Click) : List Instruction :=
  waitCode c.wait ++ moveTo c.press.x c.press.y ::
    if c.again.isSome then [.doubleClick] else clickOf c.press.button

/-- Whether a click is a left one that a second press can still make a double click. -/
def isSingle (c : Click) : Bool :=
  c.press.button = .left && c.again.isNone

/-- What one more press may do to clicks: it is a click of its own, or it makes the last one, a single left one, a
double click. -/
inductive Joined (p : Press) : List Click → List Click → Prop
  | apart (clicks : List Click) (wait : Option Binary64) : Joined p clicks (clicks ++ [⟨wait, p, none⟩])
  | again (clicks : List Click) (wait : Option Binary64) {first : Press} (hf : first.button = .left)
      (hp : p.button = .left) : Joined p (clicks ++ [⟨wait, first, none⟩]) (clicks ++ [⟨wait, first, some p⟩])

/-- Whether the last of clicks is a single left one. -/
def endsSingle (clicks : List Click) : Bool :=
  clicks.getLast?.any isSingle

theorem endsSingle_concat (clicks : List Click) (c : Click) : endsSingle (clicks ++ [c]) = c.isSingle := by
  simp [endsSingle]

theorem Joined.presses {p : Press} {clicks clicks' : List Click} (h : Joined p clicks clicks') :
    clicks'.flatMap Click.presses = clicks.flatMap Click.presses ++ [p] := by
  cases h <;> simp [Click.presses]

end Click

open Click

namespace Recording

/-- A press is recorded among clicks as it should be: it does not fail, it is one more click or makes the last one a
double click, and the instructions are those of the clicks. -/
structure Accounts (r : Recording) (clicks : List Click) (p : Press) (r' : Recording) (clicks' : List Click) :
    Prop where
  pressed : r.press p = (r', false)
  joined : Joined p clicks clicks'
  instructions : r'.instructions.toList = clicks'.flatMap code

/-- A recording keeps clicks if each press, one after another, is recorded among them as it should be. -/
def Keeps (r : Recording) (clicks : List Click) : List Press → Prop
  | [] => True
  | p :: rest => ∃ r' clicks', r.Accounts clicks p r' clicks' ∧ r'.Keeps clicks' rest

/-- Whether a press makes a double click when the press before it was at a given time. -/
def isSecond (since : Binary64) (p : Press) : Bool :=
  p.button = .left && isQuick (p.time.sub since)

/-- Presses are steady from a moment on if every press that makes a double click is late enough to leave a wait and
comes right behind a single left click; `single` says whether there is such a click to start with. -/
def steady (since : Binary64) (single : Bool) : List Press → Bool
  | [] => true
  | p :: rest =>
    (!isSecond since p || ((waitAfter? (p.time.sub since)).isSome && single)) &&
      steady p.time (p.button = .left && !isSecond since p) rest

def begun (now : Binary64) : Recording :=
  ({ lastTime := now } : Recording).start now

section

variable {r r' : Recording} {clicks clicks' : List Click} {p : Press}

private theorem code_apart (hb : p.button ≠ .other) (wait : Option Binary64) :
    code ⟨wait, p, none⟩ = waitCode wait ++ pressCode p.x p.y p.button := by
  simp [code, pressCode, hb]

private theorem code_left {first : Press} (hf : first.button = .left) (wait : Option Binary64) :
    code ⟨wait, first, none⟩ = (waitCode wait ++ [moveTo first.x first.y]) ++ [.leftClick] := by
  simp [code, hf, clickOf]

private theorem code_again (first p : Press) (wait : Option Binary64) :
    code ⟨wait, first, some p⟩ = (waitCode wait ++ [moveTo first.x first.y]) ++ [.doubleClick] := by
  simp [code]

private theorem apart_of_not_second (h : isSecond r.lastTime p = false) :
    p.button ≠ .left ∨ isQuick (r.gapBefore p) = false := by
  by_cases hl : p.button = .left
  · simp only [isSecond, hl, decide_true, Bool.true_and] at h
    exact .inr h
  · exact .inl hl

/-- A press that makes no double click is one more click. -/
theorem accounts_apart (ha : r.active = true) (hi : r.instructions.toList = clicks.flatMap code)
    (hb : p.button ≠ .other) (h : isSecond r.lastTime p = false) : ∃ r' clicks', r.Accounts clicks p r' clicks' := by
  obtain ⟨r', hpress, hgoes⟩ := press_adds ha (apart_of_not_second h)
  refine ⟨r', _, hpress, .apart clicks (waitAfter? (r.gapBefore p)), ?_⟩
  rw [hgoes.instructions, hi, List.flatMap_append, List.flatMap_singleton, code_apart hb]

/-- A press that makes a double click does so of the last click, if that is a single left one and there is a wait to
be taken away with it. -/
theorem accounts_second (ha : r.active = true) (hi : r.instructions.toList = clicks.flatMap code)
    (h : isSecond r.lastTime p = true) (hgap : (waitAfter? (r.gapBefore p)).isSome = true)
    (hsingle : endsSingle clicks = true) : ∃ r' clicks', r.Accounts clicks p r' clicks' := by
  rw [isSecond, Bool.and_eq_true, decide_eq_true_eq] at h
  obtain ⟨hfails, _, _, hcode⟩ := press_takes ha h.1 h.2
  rcases List.eq_nil_or_concat' clicks with rfl | ⟨before, ⟨wait, first, again⟩, rfl⟩
  · exact absurd hsingle (by decide)
  · rw [endsSingle_concat, isSingle, Bool.and_eq_true] at hsingle
    have hf : first.button = .left := of_decide_eq_true hsingle.1
    obtain rfl : again = none := Option.isNone_iff_eq_none.mp hsingle.2
    obtain ⟨t, ht⟩ := Option.isSome_iff_exists.mp hgap
    have hwaited : r.waited p = (before.flatMap code ++ (waitCode wait ++ [moveTo first.x first.y])) ++
        [.leftClick, .wait (.literal (.float t))] := by
      rw [waited, ht, hi, List.flatMap_append, List.flatMap_singleton, code_left hf]
      simp [waitCode]
    have hlong : ¬ (r.waited p).length < 2 := by
      rw [hwaited, List.length_append]
      exact Nat.not_lt.mpr (Nat.le_add_left 2 _)
    have hdrop : (r.waited p).dropLast.dropLast =
        before.flatMap code ++ (waitCode wait ++ [moveTo first.x first.y]) := by
      rw [hwaited, List.append_cons, List.dropLast_concat, List.dropLast_concat]
    rw [if_neg hlong, hdrop] at hcode
    refine ⟨_, _, Prod.ext rfl (hfails.trans (decide_eq_false hlong)), .again before wait hf h.1, ?_⟩
    rw [hcode, List.flatMap_append, List.flatMap_singleton, code_again, List.append_assoc]

/-- After a press the last click is a single left one exactly if the press was a left one that made no double click. -/
theorem Accounts.after (h : r.Accounts clicks p r' clicks') (ha : r.active = true)
    (hi : r.instructions.toList = clicks.flatMap code) :
    r'.active = true ∧ r'.lastTime = p.time ∧
      endsSingle clicks' = (p.button = .left && !isSecond r.lastTime p) := by
  have hi' := h.instructions
  by_cases hsecond : isSecond r.lastTime p = true
  · have hquick := hsecond
    rw [isSecond, Bool.and_eq_true, decide_eq_true_eq] at hquick
    obtain ⟨hfails, hactive, htime, hcode⟩ := press_takes ha hquick.1 hquick.2
    rw [h.pressed] at hfails hactive htime hcode
    refine ⟨hactive, htime, ?_⟩
    rw [hsecond, Bool.not_true, Bool.and_false]
    cases h.joined with
    | apart wait =>
      -- A click of its own would end in a left click.
      rw [if_neg (of_decide_eq_false hfails.symm), hi', List.flatMap_append, List.flatMap_singleton,
        code_left hquick.1, ← List.append_assoc] at hcode
      exact absurd (List.append_inj_right' hcode rfl) (by simp)
    | again before wait hf hp =>
      rw [endsSingle_concat, isSingle]
      exact Bool.and_false _
  · rw [Bool.not_eq_true] at hsecond
    obtain ⟨s, hpress, hgoes⟩ := press_adds ha (apart_of_not_second hsecond)
    obtain rfl : r' = s := congrArg Prod.fst (h.pressed.symm.trans hpress)
    refine ⟨hgoes.active, hgoes.lastTime, ?_⟩
    rw [hsecond, Bool.not_false, Bool.and_true]
    cases h.joined with
    | apart wait =>
      rw [endsSingle_concat, isSingle]
      exact Bool.and_true _
    | again before wait hf hp =>
      -- The press has added to the recording, so it cannot have changed its end alone.
      have hlength := congrArg List.length (hi'.symm.trans hgoes.instructions)
      simp [hi, code_left hf, code_again, pressCode, hp] at hlength

/-- A press that makes a double click is recorded as it should be only if it leaves a wait and comes behind a single
left click. -/
theorem Accounts.second (h : r.Accounts clicks p r' clicks') (ha : r.active = true)
    (hi : r.instructions.toList = clicks.flatMap code) (hsecond : isSecond r.lastTime p = true) :
    (waitAfter? (r.gapBefore p)).isSome = true ∧ endsSingle clicks = true := by
  have hi' := h.instructions
  have hends := (h.after ha hi).2.2
  rw [hsecond, Bool.not_true, Bool.and_false] at hends
  rw [isSecond, Bool.and_eq_true, decide_eq_true_eq] at hsecond
  obtain ⟨hfails, _, _, hcode⟩ := press_takes ha hsecond.1 hsecond.2
  rw [h.pressed] at hfails hcode
  rw [if_neg (of_decide_eq_false hfails.symm), hi'] at hcode
  cases h.joined with
  | apart wait =>
    rw [endsSingle_concat, isSingle, hsecond.1] at hends
    exact absurd (show true = false from hends) Bool.noConfusion
  | again before wait hf hp =>
    refine ⟨?_, by rw [endsSingle_concat, isSingle, hf]; rfl⟩
    cases hw : waitAfter? (r.gapBefore p) with
    | some => rfl
    | none =>
      -- Two instructions would be gone for one.
      have hlength := congrArg List.length hcode
      simp [waited, hw, waitCode, hi, code_left hf, code_again] at hlength

/-- A recording keeps its clicks exactly if the presses to come are steady. -/
theorem keeps_iff_steady (ha : r.active = true) (hi : r.instructions.toList = clicks.flatMap code)
    {presses : List Press} (hb : ∀ p ∈ presses, p.button ≠ .other) :
    r.Keeps clicks presses ↔ steady r.lastTime (endsSingle clicks) presses = true := by
  induction presses generalizing r clicks with
  | nil => exact iff_of_true trivial rfl
  | cons p rest ih =>
    rw [List.forall_mem_cons] at hb
    have hrest {s : Recording} {joined : List Click} (h : r.Accounts clicks p s joined) :
        s.Keeps joined rest ↔ steady p.time (p.button = .left && !isSecond r.lastTime p) rest = true := by
      obtain ⟨hactive, htime, hends⟩ := h.after ha hi
      rw [ih hactive h.instructions hb.2, htime, hends]
    rw [Keeps, steady, Bool.and_eq_true, Bool.or_eq_true, Bool.not_eq_true', Bool.and_eq_true]
    constructor
    · rintro ⟨s, joined, h, hkeeps⟩
      refine ⟨?_, (hrest h).mp hkeeps⟩
      cases hsecond : isSecond r.lastTime p with
      | false => exact .inl rfl
      | true => exact .inr (h.second ha hi hsecond)
    · rintro ⟨hfits, hsteady⟩
      have hexists : ∃ s joined, r.Accounts clicks p s joined := by
        cases hsecond : isSecond r.lastTime p with
        | false => exact accounts_apart ha hi hb.1 hsecond
        | true =>
          rw [hsecond] at hfits
          obtain ⟨hgap, hsingle⟩ := hfits.resolve_left Bool.noConfusion
          exact accounts_second ha hi hsecond hgap hsingle
      obtain ⟨s, joined, h⟩ := hexists
      exact ⟨s, joined, h, (hrest h).mpr hsteady⟩

/-- A recording that keeps its clicks goes on without failing, and no press is lost among the clicks. -/
theorem Keeps.reaches (ha : r.active = true) (hi : r.instructions.toList = clicks.flatMap code)
    {presses : List Press} (h : r.Keeps clicks presses) :
    ∃ r' clicks', r.pressAll presses = (r', false) ∧ r'.active = true ∧
      r'.instructions.toList = clicks'.flatMap code ∧
      clicks'.flatMap Click.presses = clicks.flatMap Click.presses ++ presses ∧
      ∀ more, steady r.lastTime (endsSingle clicks) (presses ++ more) =
        steady r'.lastTime (endsSingle clicks') more := by
  induction presses generalizing r clicks with
  | nil => exact ⟨r, clicks, rfl, ha, hi, by simp, fun _ => rfl⟩
  | cons p rest ih =>
    obtain ⟨s, joined, hp, hkeeps⟩ := h
    obtain ⟨hactive, htime, hends⟩ := hp.after ha hi
    obtain ⟨r', clicks', hall, ha', hi', hpresses, hsteady⟩ := ih hactive hp.instructions hkeeps
    refine ⟨r', clicks', ?_, ha', hi', ?_, fun more => ?_⟩
    · rw [pressAll, show r.onClick p.time p.x p.y p.button true = (s, false) from hp.pressed]
      exact hall
    · rw [hpresses, hp.joined.presses, List.append_assoc, List.singleton_append]
    · have hfits : (!isSecond r.lastTime p || ((waitAfter? (p.time.sub r.lastTime)).isSome && endsSingle clicks)) =
          true := by
        cases hsecond : isSecond r.lastTime p with
        | false => rfl
        | true =>
          obtain ⟨hgap, hsingle⟩ := hp.second ha hi hsecond
          rw [hsingle, show (waitAfter? (p.time.sub r.lastTime)).isSome = true from hgap]
          rfl
      rw [List.cons_append, steady, hfits, Bool.true_and, ← hsteady more, htime, hends]

/-- The last instruction of clicks is no wait, and it is a left click only if the last click is a single left one. -/
theorem last_of_clicks {kept : List Instruction} {last : Instruction} (h : clicks.flatMap code = kept ++ [last]) :
    (∀ t, last ≠ .wait t) ∧ (last = .leftClick → endsSingle clicks = true) := by
  rcases List.eq_nil_or_concat' clicks with rfl | ⟨before, ⟨wait, press, again⟩, rfl⟩
  · simp at h
  · rw [List.flatMap_append, List.flatMap_singleton] at h
    rw [endsSingle_concat, isSingle]
    have hcode (body : List Instruction) (inst : Instruction) (hc : code ⟨wait, press, again⟩ = body ++ [inst]) :
        last = inst := by
      rw [hc, ← List.append_assoc] at h
      exact (List.cons.inj (List.append_inj_right' h rfl)).1.symm
    cases again with
    | some again =>
      obtain rfl := hcode _ _ (code_again press again wait)
      exact ⟨fun t => Instruction.noConfusion, Instruction.noConfusion⟩
    | none =>
      cases hb : press.button with
      | left =>
        obtain rfl := hcode _ _ (code_left hb wait)
        exact ⟨fun t => Instruction.noConfusion, fun _ => rfl⟩
      | right =>
        obtain rfl := hcode (waitCode wait ++ [moveTo press.x press.y]) .rightClick (by simp [code, hb, clickOf])
        exact ⟨fun t => Instruction.noConfusion, Instruction.noConfusion⟩
      | middle =>
        obtain rfl := hcode (waitCode wait) (moveTo press.x press.y) (by simp [code, hb, clickOf])
        exact ⟨fun t => Instruction.noConfusion, Instruction.noConfusion⟩
      | other =>
        obtain rfl := hcode (waitCode wait) (moveTo press.x press.y) (by simp [code, hb, clickOf])
        exact ⟨fun t => Instruction.noConfusion, Instruction.noConfusion⟩

/-- A press that is not steady takes away something else than the click that it repeats and the wait behind it. -/
theorem waited_unsteady (hi : r.instructions.toList = clicks.flatMap code)
    (h : ¬ ((waitAfter? (r.gapBefore p)).isSome = true ∧ endsSingle clicks = true)) (kept : List Instruction)
    (t : Operand) : r.waited p ≠ kept ++ [.leftClick, .wait t] := by
  intro he
  rw [waited, hi] at he
  cases hw : waitAfter? (r.gapBefore p) with
  | none =>
    rw [hw] at he
    rw [List.append_cons, waitCode, Option.toList_none, List.map_nil, List.append_nil] at he
    exact (last_of_clicks he).1 t rfl
  | some time =>
    rw [hw] at he
    rw [List.append_cons, waitCode, Option.toList_some, List.map_singleton] at he
    refine h ⟨by rw [hw]; rfl, (last_of_clicks (List.append_inj_left' he rfl)).2 rfl⟩

end

/-- Whether a recording keeps every click and its place. It does so exactly if its presses are steady: every left press
that is quick is late enough to leave a wait and comes right behind a single left click. Then recording never fails,
the presses are those of the clicks in their order, and the instructions are those of the clicks. The first press
that is not steady takes the last two instructions away, which are not a left click and the wait behind it, or it
fails for want of them. -/
theorem recording_keeps_clicks_iff_steady {start : Binary64} {inputs : List TimedInput}
    (hb : ∀ p ∈ presses start inputs, p.button ≠ .other) :
    ((begun start).Keeps [] (presses start inputs) ↔ steady start false (presses start inputs) = true) ∧
    (steady start false (presses start inputs) = true →
      (record start inputs).2.2 = false ∧ ∃ clicks : List Click,
        clicks.flatMap Click.presses = presses start inputs ∧
        (record start inputs).1.instructions.toList = clicks.flatMap code) ∧
    ∀ before p rest, presses start inputs = before ++ p :: rest → steady start false before = true →
      steady start false (before ++ [p]) = false →
      ∃ (r : Recording) (clicks : List Click), (begun start).pressAll before = (r, false) ∧
        clicks.flatMap Click.presses = before ∧ r.instructions.toList = clicks.flatMap code ∧
        (∀ kept t, r.waited p ≠ kept ++ [.leftClick, .wait t]) ∧
        (r.press p).2 = decide ((r.waited p).length < 2) ∧
        (r.press p).1.instructions.toList = (r.waited p).dropLast.dropLast ++
          if (r.waited p).length < 2 then [] else [.doubleClick] := by
  have hsteady {presses : List Press} (hb : ∀ p ∈ presses, p.button ≠ .other) :
      (begun start).Keeps [] presses ↔ steady start false presses = true :=
    @keeps_iff_steady (begun start) [] rfl rfl presses hb
  refine ⟨hsteady hb, fun h => ?_, fun before p rest hpresses hbefore hafter => ?_⟩
  · obtain ⟨r, clicks, hall, _, hi, hclicks, _⟩ := Keeps.reaches rfl rfl ((hsteady hb).mpr h)
    have hplay := @play_presses (begun start) rfl start inputs
    rw [hall] at hplay
    rw [record]
    rcases he : play start (begun start) inputs with ⟨s, left, failed⟩
    rw [he] at hplay
    obtain ⟨hsame, rfl⟩ : s.instructions = r.instructions ∧ failed = false := hplay
    rw [show play start (({ lastTime := start } : Recording).start start) inputs = _ from he]
    refine ⟨rfl, clicks, by simpa using hclicks, ?_⟩
    change s.instructions.toList = _
    rw [hsame, hi]
  · have hb' : ∀ q ∈ before, q.button ≠ .other := fun q hq => hb q (by rw [hpresses]; exact List.mem_append_left _ hq)
    obtain ⟨r, clicks, hall, hactive, hi, hclicks, hmore⟩ := Keeps.reaches rfl rfl ((hsteady hb').mpr hbefore)
    have hunsteady := (hmore [p]).symm.trans hafter
    simp only [steady, Bool.and_true, Bool.or_eq_false_iff, Bool.not_eq_false'] at hunsteady
    obtain ⟨hsecond, hfits⟩ := hunsteady
    have hquick := hsecond
    rw [isSecond, Bool.and_eq_true, decide_eq_true_eq] at hquick
    obtain ⟨hfails, _, _, hcode⟩ := press_takes hactive hquick.1 hquick.2
    refine ⟨r, clicks, hall, by simpa using hclicks, hi, waited_unsteady hi ?_, hfails, hcode⟩
    rw [← Bool.and_eq_true, Bool.not_eq_true]
    exact hfits

/-- A double click at two places, a right press close behind it, a middle one, and releases between them. -/
theorem close_presses_are_kept :
    let time (n : Nat) : Option Binary64 := some (Decimal.nearest false ⟨n, -2⟩)
    let wait (n : Nat) : Instruction := .wait (.literal (.float (Decimal.nearest false ⟨n, -2⟩)))
    let inputs : List TimedInput :=
      [⟨time 100, .mouse (.int 5) (.int 6) .left true⟩, ⟨time 105, .mouse (.int 5) (.int 6) .left false⟩,
        ⟨time 120, .mouse (.int 7) (.int 8) .left true⟩, ⟨time 121, .mouse (.int 7) (.int 8) .left false⟩,
        ⟨time 125, .mouse (.int 1) (.int 2) .right true⟩, ⟨time 140, .mouse (.int 3) (.int 4) .middle true⟩]
    (∀ p ∈ presses (.zero false) inputs, p.button ≠ .other) ∧
    steady (.zero false) false (presses (.zero false) inputs) = true ∧
    (begun (.zero false)).Keeps [] (presses (.zero false) inputs) ∧
    (record (.zero false) inputs).1.instructions.toList =
      [wait 100, moveTo (.int 5) (.int 6), .doubleClick, moveTo (.int 1) (.int 2), .rightClick, wait 15,
        moveTo (.int 3) (.int 4)] := by
  intro time wait inputs
  have hb : ∀ p ∈ presses (.zero false) inputs, p.button ≠ .other := by decide +kernel
  have hs : steady (.zero false) false (presses (.zero false) inputs) = true := by decide +kernel
  exact ⟨hb, hs, (recording_keeps_clicks_iff_steady hb).1.mpr hs, by decide +kernel⟩

/-- A left press right after the start of a recording fails; one soon behind a right press takes its click away, and
one very soon behind a left press takes its place away. -/
theorem hasty_press_loses_click :
    let time (n : Nat) : Option Binary64 := some (Decimal.nearest false ⟨n, -2⟩)
    let wait : Instruction := .wait (.literal (.float (Decimal.nearest false ⟨1, 0⟩)))
    let start : TimedInput := ⟨time 5, .mouse (.int 1) (.int 2) .left true⟩
    let right : TimedInput := ⟨time 100, .mouse (.int 1) (.int 2) .right true⟩
    let left : TimedInput := ⟨time 100, .mouse (.int 1) (.int 2) .left true⟩
    let soon (n : Nat) : TimedInput := ⟨time n, .mouse (.int 3) (.int 4) .left true⟩
    (record (.zero false) [start]).2.2 = true ∧ ¬ (begun (.zero false)).Keeps [] (presses (.zero false) [start]) ∧
    (record (.zero false) [right, soon 120]).1.instructions.toList =
      [wait, moveTo (.int 1) (.int 2), .doubleClick] ∧
    (record (.zero false) [left, soon 105]).1.instructions.toList = [wait, .doubleClick] := by
  intro time wait start right left soon
  have hb : ∀ p ∈ presses (.zero false) [start], p.button ≠ .other := by decide +kernel
  refine ⟨by decide +kernel, ?_, by decide +kernel, by decide +kernel⟩
  rw [@keeps_iff_steady (begun (.zero false)) [] rfl rfl _ hb]
  decide +kernel

end Recording

end PointerScript
