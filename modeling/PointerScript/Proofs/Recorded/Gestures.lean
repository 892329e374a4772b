import PointerScript.Proofs.Number.Order
import PointerScript.Recording

/-! What a recording makes of a session. The presses of a well-timed session are gestures, one after
another and far enough apart; each is recorded as the wait before it, the movement to its place and its
click. -/

namespace PointerScript

structure Press where
  time : Binary64
  x : Number
  y : Number
  button : MouseButton
  deriving DecidableEq

/-- The kinds of gestures. A double click has a second press, at a time and a place of its own. -/
inductive GestureKind where
  | left
  | right
  | middle
  | double (again : Binary64) (x y : Number)
  deriving DecidableEq

/-- A gesture: when and where its first press is, and of which kind it is. -/
structure Gesture where
  time : Binary64
  x : Int
  y : Int
  kind : GestureKind
  deriving DecidableEq

namespace Gesture

def presses (g : Gesture) : List Press :=
  match g.kind with
  | .left => [⟨g.time, .int g.x, .int g.y, .left⟩]
  | .right => [⟨g.time, .int g.x, .int g.y, .right⟩]
  | .middle => [⟨g.time, .int g.x, .int g.y, .middle⟩]
  | .double again x y => [⟨g.time, .int g.x, .int g.y, .left⟩, ⟨again, x, y, .left⟩]

def lastTime (g : Gesture) : Binary64 :=
  match g.kind with
  | .double again _ _ => again
  | _ => g.time

/-- The two presses of a double click are close together, but not as close as to leave no wait. -/
def isQuick (g : Gesture) : Bool :=
  match g.kind with
  | .double again _ _ =>
    let gap : Number := .float (again.sub g.time)
    Recording.leastWait.lt gap && gap.lt Recording.doubleClickGap
  | _ => true

/-- The click of a gesture. The middle button only moves. -/
def click (g : Gesture) : List Instruction :=
  match g.kind with
  | .left => [.leftClick]
  | .right => [.rightClick]
  | .middle => []
  | .double _ _ _ => [.doubleClick]

end Gesture

/-- Gestures are well timed from a moment on if none is close to the press before it and the presses of
each belong together. -/
def wellTimed (since : Binary64) : List Gesture → Bool
  | [] => true
  | g :: rest =>
    Recording.doubleClickGap.le (.float (g.time.sub since)) && g.isQuick && wellTimed g.lastTime rest

/-- A gesture and the wait before it. -/
structure Paced where
  wait : Binary64
  gesture : Gesture
  deriving DecidableEq

/-- Gestures with the waits between them, in hundredths of a second. -/
def paced (since : Binary64) : List Gesture → List Paced
  | [] => []
  | g :: rest => ⟨(g.time.sub since).roundPlaces 2, g⟩ :: paced g.lastTime rest

/-- What is recorded of a gesture. -/
def Paced.recorded (p : Paced) : List Instruction :=
  .wait (.literal (.float p.wait)) :: Recording.moveTo (.int p.gesture.x) (.int p.gesture.y) :: p.gesture.click

namespace Recording

/-- The presses of a session, up to the key that ends it. An input without a time of its own comes at the
time of the one before. -/
def presses (now : Binary64) : List TimedInput → List Press
  | [] => []
  | timed :: rest =>
    let now := timed.time.getD now
    match timed.input with
    | .mouse x y button pressed =>
      if pressed then ⟨now, x, y, button⟩ :: presses now rest else presses now rest
    | .key key => if key = .special .enter then [] else presses now rest
    | .stopButton => presses now rest

/-- Records presses one after another, up to one that fails. -/
def pressAll (r : Recording) : List Press → Recording × Bool
  | [] => (r, false)
  | p :: rest =>
    match r.onClick p.time p.x p.y p.button true with
    | (r, true) => (r, true)
    | (r, false) => r.pressAll rest

theorem pressAll_append {r r' : Recording} {first : List Press} (h : r.pressAll first = (r', false))
    (second : List Press) : r.pressAll (first ++ second) = r'.pressAll second := by
  induction first generalizing r with
  | nil =>
    obtain rfl : r = r' := congrArg Prod.fst h
    rfl
  | cons p rest ih =>
    rw [pressAll] at h
    rw [List.cons_append, pressAll]
    split at h
    · simp at h
    · exact ih h

theorem onClick_released {r : Recording} (now : Binary64) (x y : Number) (button : MouseButton) :
    r.onClick now x y button false = (r, false) := by
  simp [onClick]

theorem onClick_active (r : Recording) (now : Binary64) (x y : Number) (button : MouseButton) (pressed : Bool) :
    (r.onClick now x y button pressed).1.active = r.active := by
  have hnote : (r.noteTime now).1.active = r.active := by
    unfold noteTime
    dsimp only
    split <;> rfl
  have hdouble (s : Recording) (place : String) : (s.doubleClick place).1.active = s.active := by
    unfold doubleClick dropLast?
    by_cases h : s.instructions.isEmpty = true
    · simp [h]
    · by_cases hp : s.instructions.pop.isEmpty = true
      · simp [h, hp]
      · simp [h, hp, say, add]
  unfold onClick
  split
  · rfl
  · rcases hn : r.noteTime now with ⟨s, gap⟩
    rw [hn] at hnote
    cases button with
    | left =>
      by_cases hgap : gap.lt doubleClickGap = true
      · simp only [hgap, if_true]
        exact (hdouble s _).trans hnote
      · simp only [hgap, Bool.false_eq_true, if_false]
        exact hnote
    | right => exact hnote
    | middle => exact hnote
    | other => exact hnote

/-- Playing a session records its presses; all else the user does leaves the instructions as they are. -/
theorem play_presses {r : Recording} (h : r.active = true) (now : Binary64) (inputs : List TimedInput) :
    (play now r inputs).1.instructions = (r.pressAll (presses now inputs)).1.instructions ∧
      (play now r inputs).2.2 = (r.pressAll (presses now inputs)).2 := by
  -- The recording stays active until the key that ends it, and then no press is left.
  induction inputs generalizing r now with
  | nil => exact ⟨rfl, rfl⟩
  | cons timed rest ih =>
    rw [play, presses]
    cases timed.input with
    | mouse x y button pressed =>
      cases pressed with
      | false =>
        simp only [onClick_released]
        exact ih h _
      | true =>
        have ha := onClick_active r (timed.time.getD now) x y button true
        simp only [if_true, pressAll]
        rcases hc : r.onClick (timed.time.getD now) x y button true with ⟨s, failed⟩
        rw [hc] at ha
        cases failed with
        | true => exact ⟨rfl, rfl⟩
        | false => exact ih (ha.trans h) _
    | key key =>
      simp only [onKey]
      by_cases hk : key = .special .enter
      · simp [hk, pressAll, say]
      · simp only [hk, if_false]
        exact ih h _
    | stopButton => exact ih h _

section

variable {r : Recording}

/-- A recording goes on from another: the last press was at a given time and instructions have been added. -/
structure GoesOn (r r' : Recording) (time : Binary64) (added : List Instruction) : Prop where
  active : r'.active = true
  lastTime : r'.lastTime = time
  instructions : r'.instructions.toList = r.instructions.toList ++ added

theorem GoesOn.trans {a b c : Recording} {time time' : Binary64} {first second : List Instruction}
    (hab : GoesOn a b time first) (hbc : GoesOn b c time' second) : GoesOn a c time' (first ++ second) := by
  refine ⟨hbc.active, hbc.lastTime, ?_⟩
  rw [hbc.instructions, hab.instructions, List.append_assoc]

theorem noteTime_long {now : Binary64} (ha : r.active = true)
    (h : leastWait.lt (.float (now.sub r.lastTime)) = true) :
    ∃ r', r.noteTime now = (r', .float (now.sub r.lastTime)) ∧
      GoesOn r r' now [.wait (.literal (.float ((now.sub r.lastTime).roundPlaces 2)))] := by
  rw [noteTime, if_pos h]
  exact ⟨_, rfl, ha, rfl, by simp [add]⟩

/-- The instructions that a press leaves when it is not close to the one before. -/
def clickOf : MouseButton → List Instruction
  | .left => [.leftClick]
  | .right => [.rightClick]
  | _ => []

/-- A press that is not close to the one before is recorded as a wait, a movement and its click. -/
theorem onClick_apart (ha : r.active = true) {now : Binary64}
    (hgap : doubleClickGap.le (.float (now.sub r.lastTime)) = true) (x y : Number) {button : MouseButton}
    (hb : button ≠ .other) :
    ∃ r', r.onClick now x y button true = (r', false) ∧
      GoesOn r r' now (.wait (.literal (.float ((now.sub r.lastTime).roundPlaces 2))) :: moveTo x y ::
        clickOf button) := by
  have hwait : leastWait.lt (.float (now.sub r.lastTime)) = true := Number.lt_of_lt_of_le (by decide +kernel) hgap
  have hapart := Number.lt_eq_false_of_le hgap
  obtain ⟨s, hnote, hs⟩ := noteTime_long ha hwait
  have hadd (code : List Instruction) (message : String) :
      GoesOn s ((s.add code).say .info message) now code :=
    ⟨hs.active, hs.lastTime, by simp [say, add]⟩
  cases button with
  | left => exact ⟨_, by simp [onClick, ha, hnote, hapart]; rfl, hs.trans (hadd _ _)⟩
  | right => exact ⟨_, by simp [onClick, ha, hnote]; rfl, hs.trans (hadd _ _)⟩
  | middle => exact ⟨_, by simp [onClick, ha, hnote]; rfl, hs.trans (hadd _ _)⟩
  | other => exact absurd rfl hb

theorem dropLast?_append {before : List Instruction} {last : Instruction}
    (h : r.instructions.toList = before ++ [last]) :
    r.dropLast? = some { r with instructions := before.toArray } := by
  have hi : r.instructions = (before ++ [last]).toArray := by rw [← h]
  simp [dropLast?, hi]

theorem doubleClick_append {before : List Instruction} {first second : Instruction}
    (h : r.instructions.toList = before ++ [first, second]) (place : String) :
    r.doubleClick place = ((add { r with instructions := before.toArray } [.doubleClick]).say .info
      ("Recorded double left click at " ++ place), false) := by
  rw [List.append_cons] at h
  have hfirst : dropLast? { r with instructions := (before ++ [first]).toArray } =
      some { r with instructions := before.toArray } := dropLast?_append rfl
  simp only [doubleClick, dropLast?_append h, hfirst]

/-- A left press close to a click takes the click and the wait between them away and leaves a double
click. -/
theorem onClick_again {start : Recording} {now time : Binary64} {before : List Instruction}
    (hr : GoesOn start r time (before ++ [.leftClick])) (hwait : leastWait.lt (.float (now.sub time)) = true)
    (hclose : (Number.float (now.sub time)).lt doubleClickGap = true) (x y : Number) :
    ∃ r', r.onClick now x y .left true = (r', false) ∧ GoesOn start r' now (before ++ [.doubleClick]) := by
  obtain ⟨ha, rfl, hi⟩ := hr
  obtain ⟨s, hnote, hs⟩ := noteTime_long ha hwait
  -- The press itself has recorded a wait, so two instructions have to go.
  have hwaited : s.instructions.toList = (start.instructions.toList ++ before) ++
      [.leftClick, .wait (.literal (.float ((now.sub r.lastTime).roundPlaces 2)))] := by
    rw [hs.instructions, hi]
    simp
  have hclick : r.onClick now x y .left true = s.doubleClick (placeText x y) := by
    simp [onClick, ha, hnote, hclose]
  rw [hclick, doubleClick_append hwaited]
  exact ⟨_, rfl, hs.active, hs.lastTime, by simp [say, add]⟩

end

/-- A well-timed gesture is recorded as its wait, its movement and its click. -/
theorem pressAll_gesture {r : Recording} (ha : r.active = true) {g : Gesture}
    (hgap : doubleClickGap.le (.float (g.time.sub r.lastTime)) = true) (hq : g.isQuick = true) :
    ∃ r', r.pressAll g.presses = (r', false) ∧
      GoesOn r r' g.lastTime (Paced.recorded ⟨(g.time.sub r.lastTime).roundPlaces 2, g⟩) := by
  obtain ⟨time, px, py, kind⟩ := g
  have hfirst (button : MouseButton) (hb : button ≠ .other) := onClick_apart ha hgap (.int px) (.int py) hb
  cases kind with
  | left =>
    obtain ⟨s, hs, hgoes⟩ := hfirst .left (by decide)
    exact ⟨s, by simp [Gesture.presses, pressAll, hs], hgoes⟩
  | right =>
    obtain ⟨s, hs, hgoes⟩ := hfirst .right (by decide)
    exact ⟨s, by simp [Gesture.presses, pressAll, hs], hgoes⟩
  | middle =>
    obtain ⟨s, hs, hgoes⟩ := hfirst .middle (by decide)
    exact ⟨s, by simp [Gesture.presses, pressAll, hs], hgoes⟩
  | double again x y =>
    obtain ⟨s, hs, hgoes⟩ := hfirst .left (by decide)
    rw [Gesture.isQuick, Bool.and_eq_true] at hq
    obtain ⟨t, ht, hlast⟩ := @onClick_again s r again time [_, _] hgoes hq.1 hq.2 x y
    exact ⟨t, by simp [Gesture.presses, pressAll, hs, ht], hlast⟩

theorem pressAll_gestures {r : Recording} (ha : r.active = true) {gestures : List Gesture}
    (ht : wellTimed r.lastTime gestures = true) :
    ∃ r', r.pressAll (gestures.flatMap Gesture.presses) = (r', false) ∧
      r'.instructions.toList = r.instructions.toList ++ (paced r.lastTime gestures).flatMap Paced.recorded := by
  -- The gap before the next gesture is measured from the last press of this one.
  induction gestures generalizing r with
  | nil => exact ⟨r, rfl, by simp [paced]⟩
  | cons g rest ih =>
    rw [wellTimed, Bool.and_eq_true, Bool.and_eq_true] at ht
    obtain ⟨⟨hgap, hquick⟩, hrest⟩ := ht
    obtain ⟨s, hs, hgoes⟩ := pressAll_gesture ha hgap hquick
    rw [← hgoes.lastTime] at hrest
    obtain ⟨t, ht, hi⟩ := ih hgoes.active hrest
    refine ⟨t, by rw [List.flatMap_cons, pressAll_append hs, ht], ?_⟩
    rw [hi, hgoes.instructions, hgoes.lastTime, paced, List.flatMap_cons, List.append_assoc]

/-- A session whose presses are well-timed gestures is recorded without failing, gesture by gesture. -/
theorem record_gestures {start : Binary64} {inputs : List TimedInput} {gestures : List Gesture}
    (hp : presses start inputs = gestures.flatMap Gesture.presses) (ht : wellTimed start gestures = true) :
    (record start inputs).2.2 = false ∧
      (record start inputs).1.instructions.toList = (paced start gestures).flatMap Paced.recorded := by
  have hplay := @play_presses ({ lastTime := start : Recording }.start start) rfl start inputs
  obtain ⟨r, hr, hi⟩ := @pressAll_gestures ({ lastTime := start : Recording }.start start) rfl gestures ht
  rw [hp, hr] at hplay
  rw [record]
  rcases he : play start ({ lastTime := start : Recording }.start start) inputs with ⟨s, rest, failed⟩
  rw [he] at hplay
  obtain ⟨hsame, rfl⟩ : s.instructions = r.instructions ∧ failed = false := hplay
  refine ⟨rfl, ?_⟩
  change s.instructions.toList = _
  rw [hsame, hi]
  rfl

end Recording

end PointerScript
