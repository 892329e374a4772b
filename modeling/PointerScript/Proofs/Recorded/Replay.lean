import PointerScript.Proofs.Recorded.Gestures
import PointerScript.Proofs.Relisting
import PointerScript.Proofs.Structured.Unrolling

/-! Replaying a recording. What a well-timed session has recorded is listed, compiled and run; the run does
what the user did, gesture by gesture. -/

namespace PointerScript

def Gesture.clickEvents (g : Gesture) : List Event :=
  match g.kind with
  | .left => [.leftClick]
  | .right => [.rightClick]
  | .middle => []
  | .double _ _ _ => [.doubleClick]

namespace Paced

def replayed (p : Paced) : List Event :=
  .sleep (.float p.wait) :: .moveTo ⟨p.gesture.x, p.gesture.y⟩ (.float (.zero false)) :: p.gesture.clickEvents

/-- Whether the wait before a gesture is one that a device can sleep. -/
def isPlayable (p : Paced) : Bool :=
  !Device.sleepOutOfRange (.float p.wait)

end Paced

namespace Machine

/-- A machine without faults that has been set up, holds no clicks back and moves from the origin. -/
structure Clear (n : Machine) : Prop where
  faultless : n.device.faults = []
  memory : ∃ memory, n.store = .ready memory ∧ memory.offset = .origin ∧ memory.safe = false

/-- Performing instructions adds events and leaves the machine clear. -/
def Emits (n : Machine) (code : List Instruction) (events : List Event) : Prop :=
  ∃ n', n.perform code = (n', none) ∧ n'.Clear ∧ n'.device.events.toList = n.device.events.toList ++ events

section

variable {n : Machine}

theorem Clear.emits_nil (h : n.Clear) : n.Emits [] [] :=
  ⟨n, rfl, h, (List.append_nil _).symm⟩

theorem emits_cons {inst : Instruction} {n' : Machine} {e : Event} {code : List Instruction} {events : List Event}
    (hc : n.carryOut none inst = (n', none)) (he : n'.device.events.toList = n.device.events.toList ++ [e])
    (h : n'.Emits code events) : n.Emits (inst :: code) (e :: events) := by
  obtain ⟨n'', hp, hclear, hevents⟩ := h
  refine ⟨n'', by simp only [perform, hc, hp], hclear, ?_⟩
  rw [hevents, he, List.append_assoc, List.singleton_append]

theorem carryOut_wait {w : Binary64} (h : n.Clear) (hsign : w ≠ .nan ∧ w.isNegative = false)
    (hrange : Device.sleepOutOfRange (.float w) = false) :
    n.carryOut none (.wait (.literal (.float w))) =
      ({ n with device := n.device.note (.sleep (.float w)) }, none) := by
  have hsleep := Device.sleep_faultless h.faultless (by simpa using hsign.1) hrange (Number.lt_zero_of_sign hsign.2)
  simp only [carryOut, value, attempt, onDevice, hsleep, Option.map_none]

/-- A wait that is out of range fails and leaves the device as it is. -/
theorem carryOut_wait_fails {w : Binary64} (hrange : Device.sleepOutOfRange (.float w) = true) :
    ∃ fault, n.carryOut none (.wait (.literal (.float w))) = (n, some fault) := by
  simp only [carryOut, value, attempt, onDevice, Device.sleep, hrange, if_true]
  split <;> exact ⟨_, rfl⟩

theorem carryOut_move {x y : Number} {px py : Int} (h : n.Clear) (hx : x.truncate = .ok px)
    (hy : y.truncate = .ok py) (time : Number) :
    ∃ n', n.carryOut none (.move (.literal x) (.operand (.literal y)) time) = (n', none) ∧ n'.Clear ∧
      n'.device.events.toList = n.device.events.toList ++ [.moveTo ⟨px, py⟩ time] := by
  obtain ⟨memory, hstore, hoffset, hsafe⟩ := h.memory
  have hplace : placeOf x y = .ok ⟨px, py⟩ := by simp only [placeOf, hx, hy]
  have hshift : (⟨px, py⟩ : Point).shift .origin = ⟨px, py⟩ := by simp [Point.shift, Point.origin]
  have hmove : n.device.moveTo ⟨px, py⟩ time = _ := Device.perform_faultless h.faultless _ _
  simp only [carryOut, move, remember, hstore, Store.memory, attemptMemory, value, argument, attempt, hplace,
    withMemory, Store.offset, Memory.pushPlace, hoffset, hshift, onDevice, hmove, Option.map_none]
  refine ⟨_, rfl, ⟨h.faultless, _, rfl, rfl, hsafe⟩, ?_⟩
  simp [Device.note]

theorem Clear.clicks (h : n.Clear) (call : DeviceCall) (e : Event) :
    ∃ n', n.click (fun d => d.perform call fun d => d.note e) = (n', none) ∧ n'.Clear ∧
      n'.device.events.toList = n.device.events.toList ++ [e] := by
  obtain ⟨memory, hstore, hoffset, hsafe⟩ := h.memory
  have hcall := Device.perform_faultless h.faultless call fun d => d.note e
  simp only [Machine.click, hstore, Store.safe, attemptMemory, hsafe, Bool.false_eq_true, if_false, onDevice, hcall,
    Option.map_none]
  refine ⟨_, rfl, ⟨h.faultless, memory, rfl, hoffset, hsafe⟩, ?_⟩
  simp [Device.note]

theorem Clear.emits_click (h : n.Clear) (g : Gesture) : n.Emits g.click g.clickEvents := by
  obtain ⟨time, x, y, kind⟩ := g
  cases kind with
  | left =>
    obtain ⟨n', hc, hclear, he⟩ := h.clicks .leftClick .leftClick
    exact emits_cons hc he hclear.emits_nil
  | right =>
    obtain ⟨n', hc, hclear, he⟩ := h.clicks .rightClick .rightClick
    exact emits_cons hc he hclear.emits_nil
  | middle => exact h.emits_nil
  | double again x' y' =>
    obtain ⟨n', hc, hclear, he⟩ := h.clicks .doubleClick .doubleClick
    exact emits_cons hc he hclear.emits_nil

end

end Machine

namespace Paced

/-- A wait that is no fault, and a place within the whole numbers that keep their value. -/
structure Sound (p : Paced) : Prop where
  sign : p.wait ≠ .nan ∧ p.wait.isNegative = false
  x : p.gesture.x.natAbs ≤ 2 ^ 53
  y : p.gesture.y.natAbs ≤ 2 ^ 53

variable {p : Paced}

theorem reread_click (g : Gesture) : g.click.map Instruction.reread = g.click := by
  obtain ⟨time, x, y, kind⟩ := g
  cases kind <;> rfl

/-- A recorded gesture that has been listed and read back does what the user did. -/
theorem Sound.emits (h : p.Sound) (hplay : p.isPlayable = true) {n : Machine} (hn : n.Clear) :
    n.Emits (p.recorded.map Instruction.reread) p.replayed := by
  obtain ⟨x, hx, hpx⟩ := Operand.read_int h.x
  obtain ⟨y, hy, hpy⟩ := Operand.read_int h.y
  have hcode : p.recorded.map Instruction.reread = .wait (.literal (.float p.wait)) ::
      .move (.literal (.float x)) (.operand (.literal (.float y))) (.float (.zero false)) :: p.gesture.click := by
    rw [recorded, List.map_cons, List.map_cons, reread_click, Recording.moveTo, Instruction.reread, Instruction.reread,
      Operand.read_float, hx, hy]
  have hwait := Machine.carryOut_wait hn h.sign (by simpa [isPlayable] using hplay)
  have hwaited : ({ n with device := n.device.note (.sleep (.float p.wait)) } : Machine).Clear :=
    ⟨hn.faultless, hn.memory⟩
  obtain ⟨n', hmove, hmoved, hevent⟩ := Machine.carryOut_move hwaited hpx hpy (.float (.zero false))
  rw [hcode]
  exact Machine.emits_cons hwait (by simp [Device.note])
    (Machine.emits_cons hmove hevent (hmoved.emits_click p.gesture))

theorem Sound.listed (h : p.Sound) (m : Machine) : ∀ inst ∈ p.recorded, Listing.Listed (Listing.readerOf m) inst := by
  refine List.forall_mem_cons.mpr ⟨Listing.listed_wait m p.wait, List.forall_mem_cons.mpr
    ⟨Listing.listed_move m h.x h.y, fun inst hi => Listing.listed_click m ?_⟩⟩
  obtain ⟨wait, time, x, y, kind⟩ := p
  cases kind <;> simp_all [Gesture.click]

/-- Recorded gestures are replayed one after another, up to the first wait that no device can sleep. -/
theorem perform_recorded {session : List Paced} (h : ∀ p ∈ session, p.Sound) {n : Machine} (hn : n.Clear) :
    (n.perform ((session.flatMap recorded).map Instruction.reread)).1.device.events.toList =
      n.device.events.toList ++ (session.takeWhile isPlayable).flatMap replayed := by
  induction session generalizing n with
  | nil => simp [Machine.perform]
  | cons p rest ih =>
    rw [List.forall_mem_cons] at h
    rw [List.flatMap_cons, List.map_append]
    by_cases hplay : p.isPlayable = true
    · obtain ⟨n', hp, hclear, hevents⟩ := h.1.emits hplay hn
      rw [Machine.perform_append, hp, List.takeWhile_cons_of_pos hplay, List.flatMap_cons, ← List.append_assoc,
        ← hevents]
      exact ih h.2 hclear
    · -- The wait fails at once, and with it the rest of the recording.
      have hrange : Device.sleepOutOfRange (.float p.wait) = true := by simpa [isPlayable] using hplay
      obtain ⟨fault, hfails⟩ := @Machine.carryOut_wait_fails n _ hrange
      rw [List.takeWhile_cons_of_neg hplay, List.flatMap_nil, List.append_nil, recorded, List.map_cons,
        Instruction.reread, Operand.read_float, List.cons_append, Machine.perform, hfails]

end Paced

/-- The waits between well-timed gestures are no faults. -/
theorem paced_sign {since : Binary64} {gestures : List Gesture} (h : wellTimed since gestures = true) :
    ∀ p ∈ paced since gestures, p.wait ≠ .nan ∧ p.wait.isNegative = false := by
  induction gestures generalizing since with
  | nil => simp [paced]
  | cons g rest ih =>
    rw [wellTimed, Bool.and_eq_true, Bool.and_eq_true] at h
    have hpos : (Number.int 0).lt (.float (g.time.sub since)) = true :=
      Number.lt_of_lt_of_le (by decide +kernel) h.1.1
    exact List.forall_mem_cons.mpr ⟨Binary64.roundPlaces_sign (Number.sign_of_pos hpos) 2, ih h.2⟩

theorem gesture_mem_of_paced {since : Binary64} {gestures : List Gesture} {p : Paced}
    (h : p ∈ paced since gestures) : p.gesture ∈ gestures := by
  induction gestures generalizing since with
  | nil => simp [paced] at h
  | cons g rest ih =>
    rcases List.mem_cons.mp h with rfl | h
    · exact List.mem_cons_self
    · exact List.mem_cons_of_mem _ (ih h)

theorem Machine.clear_primed {m : Machine} (hf : m.device.faults = []) : (m.primed false #[]).Clear :=
  ⟨hf, {}, rfl, rfl, rfl⟩

theorem Machine.conclude_device (m : Machine) (code : List Instruction) :
    (m.conclude code).device = (m.perform code).1.device := by
  unfold conclude
  split <;> simp_all [say]

/-- A program of plain instructions performs them one after another and returns. -/
theorem execute_straight {safe : Bool} {source : String} {code : List Instruction}
    (hc : (compile safe source).1 = .program (Standard.initial safe ++ code).toArray)
    (hp : ∀ inst ∈ code, inst.isPlain = true) {m : Machine} (hf : m.device.faults = []) :
    ∃ (steps : Nat) (r : Run), (∀ budget,
      (m.load (Standard.initial safe ++ code).toArray).execute (budget + steps) [] = (r, .returned)) ∧
      r.machine.Mirrors ((m.primed safe #[]).conclude code) := by
  obtain ⟨r, hpending, hm, _, hloop⟩ := Machine.execute_primed (laid_of_compile hc) hf
  have hperform := (standing_primed m hpending hm).performs_code (codeAt_toArray (Standard.initial safe) code) hp
  rw [Performs] at hperform
  rw [Machine.conclude]
  generalize (m.primed safe #[]).perform code = result at hperform ⊢
  rcases result with ⟨n, _ | ⟨inst, fault⟩⟩
  · obtain ⟨r', hgoes, hst⟩ := hperform
    have hpast : r'.machine.pc = r'.machine.program.size := by
      rw [hst.pc, hst.loaded]
      simp [Standard.first]
    have hturn := Run.turn_past hst.running hst.pending hst.free hpast
    obtain ⟨steps, hsteps⟩ := (hgoes.stops (Run.stops_of_turn hturn)).returns hloop
    exact ⟨steps, _, hsteps, hst.mirrors.device, hst.mirrors.memory, Machine.shown_say hst.mirrors.shown _ _⟩
  · obtain ⟨r', hstops, hmirrors⟩ := hperform
    obtain ⟨steps, hsteps⟩ := hstops.returns hloop
    exact ⟨steps, r', hsteps, hmirrors⟩

/-- A well-timed session is recorded and replayed faithfully. Its presses are gestures, none close to the
press before it. The recording has for each gesture the wait before it, the movement to its first press
and its click; its listing compiles; and the program, run without faults, first waits for its start and
then does what the user did, gesture by gesture. Only a wait that no device can sleep ends the replay. -/
theorem recorded_session_replays {start : Binary64} {inputs : List TimedInput} {gestures : List Gesture}
    (hpresses : Recording.presses start inputs = gestures.flatMap Gesture.presses)
    (htimed : wellTimed start gestures = true)
    (hplaces : ∀ g ∈ gestures, g.x.natAbs ≤ 2 ^ 53 ∧ g.y.natAbs ≤ 2 ^ 53) :
    let session := paced start gestures
    let recorded := (Recording.record start inputs).1.instructions.toList
    (Recording.record start inputs).2.2 = false ∧ recorded = session.flatMap Paced.recorded ∧
    ∀ (lister : Machine) (now : Moment), ∃ source program,
      Listing.source (Listing.readerOf lister) now recorded = (.ok source, #[]) ∧
      (compile false source).1 = .program program ∧
      ∀ m : Machine, m.device.faults = [] → ∃ steps, ∀ budget, steps ≤ budget →
        let run := (m.load program).execute budget []
        run.2 = .returned ∧
        run.1.machine.device.events.toList = m.device.events.toList ++ [.sleep Standard.delay] ++
          (session.takeWhile Paced.isPlayable).flatMap Paced.replayed := by
  intro session recorded
  obtain ⟨hok, hrecorded⟩ := Recording.record_gestures hpresses htimed
  have hsound : ∀ p ∈ session, p.Sound := fun p hp =>
    ⟨paced_sign htimed p hp, (hplaces _ (gesture_mem_of_paced hp)).1, (hplaces _ (gesture_mem_of_paced hp)).2⟩
  refine ⟨hok, hrecorded, fun lister now => ?_⟩
  have hlisted : ∀ inst ∈ recorded, Listing.Listed (Listing.readerOf lister) inst := by
    intro inst hi
    rw [show recorded = _ from hrecorded, List.mem_flatMap] at hi
    obtain ⟨p, hp, hi⟩ := hi
    exact (hsound p hp).listed lister inst hi
  obtain ⟨source, hsource, hcompile⟩ := Listing.compile_source hlisted now false
  refine ⟨source, _, hsource, hcompile, fun m hf => ?_⟩
  have hplain : ∀ inst ∈ recorded.map Instruction.reread, inst.isPlain = true :=
    List.forall_mem_map.mpr fun inst hi => (hlisted inst hi).1
  obtain ⟨steps, r, hr, hmirrors⟩ := execute_straight hcompile hplain hf
  refine ⟨steps, fun budget hbudget => ?_⟩
  obtain ⟨more, rfl⟩ := Nat.exists_eq_add_of_le' hbudget
  have hevents := Paced.perform_recorded hsound (Machine.clear_primed hf)
  rw [← hrecorded, Machine.primed_device] at hevents
  simp only [hr more]
  refine ⟨trivial, ?_⟩
  rw [hmirrors.device, Machine.conclude_device, hevents]
  simp [Device.note]

/-- A session with gestures of all kinds, releases between them and keys. -/
def Recording.mixedSession : List TimedInput :=
  let tenths (n : Nat) : Option Binary64 := some (Decimal.nearest false ⟨n, -1⟩)
  [⟨tenths 10, .mouse (.int 10) (.int 20) .left true⟩, ⟨none, .mouse (.int 10) (.int 20) .left false⟩,
    ⟨tenths 15, .mouse (.int (-30)) (.int 40) .right true⟩, ⟨tenths 16, .key (.char "a")⟩,
    ⟨tenths 20, .mouse (.int 5) (.int 6) .left true⟩, ⟨tenths 21, .mouse (.int 5) (.int 6) .left false⟩,
    ⟨tenths 22, .mouse (.int 7) (.int 8) .left true⟩, ⟨tenths 30, .mouse (.int 0) (.int (2 ^ 53)) .middle true⟩,
    ⟨none, .key (.special .enter)⟩, ⟨tenths 50, .mouse (.int 1) (.int 1) .left true⟩]

def Recording.mixedGestures : List Gesture :=
  let tenths (n : Nat) : Binary64 := Decimal.nearest false ⟨n, -1⟩
  [⟨tenths 10, 10, 20, .left⟩, ⟨tenths 15, -30, 40, .right⟩,
    ⟨tenths 20, 5, 6, .double (tenths 22) (.int 7) (.int 8)⟩, ⟨tenths 30, 0, 2 ^ 53, .middle⟩]

/-- The mixed session is replayed as it was, up to the key that ended it. -/
theorem mixed_session_replays :
    let start := Binary64.zero false
    let wait (n : Nat) : Event := .sleep (.float (Decimal.nearest false ⟨n, -1⟩))
    let move (x y : Int) : Event := .moveTo ⟨x, y⟩ (.float (.zero false))
    Recording.presses start Recording.mixedSession = Recording.mixedGestures.flatMap Gesture.presses ∧
    wellTimed start Recording.mixedGestures = true ∧
    (∀ g ∈ Recording.mixedGestures, g.x.natAbs ≤ 2 ^ 53 ∧ g.y.natAbs ≤ 2 ^ 53) ∧
    (Recording.record start Recording.mixedSession).2.2 = false ∧
    ∃ source program, Listing.source (Listing.readerOf {}) {}
        (Recording.record start Recording.mixedSession).1.instructions.toList = (.ok source, #[]) ∧
      (compile false source).1 = .program program ∧ ∃ steps, ∀ budget, steps ≤ budget →
        (({} : Machine).load program |>.execute budget []).1.machine.device.events.toList =
          [wait 5, wait 10, move 10 20, .leftClick, wait 5, move (-30) 40, .rightClick, wait 5, move 5 6,
            .doubleClick, wait 8, move 0 (2 ^ 53)] := by
  intro start wait move
  have hpresses : Recording.presses start Recording.mixedSession =
      Recording.mixedGestures.flatMap Gesture.presses := by decide +kernel
  have htimed : wellTimed start Recording.mixedGestures = true := by decide +kernel
  have hplaces : ∀ g ∈ Recording.mixedGestures, g.x.natAbs ≤ 2 ^ 53 ∧ g.y.natAbs ≤ 2 ^ 53 := by decide +kernel
  obtain ⟨hok, _, hreplay⟩ := recorded_session_replays hpresses htimed hplaces
  obtain ⟨source, program, hsource, hcompile, hrun⟩ := hreplay {} {}
  obtain ⟨steps, hsteps⟩ := hrun {} rfl
  refine ⟨hpresses, htimed, hplaces, hok, source, program, hsource, hcompile, steps, fun budget hbudget => ?_⟩
  have hevents : [Event.sleep Standard.delay] ++
      ((paced start Recording.mixedGestures).takeWhile Paced.isPlayable).flatMap Paced.replayed =
        [wait 5, wait 10, move 10 20, .leftClick, wait 5, move (-30) 40, .rightClick, wait 5, move 5 6,
          .doubleClick, wait 8, move 0 (2 ^ 53)] := by decide +kernel
  rw [← hevents]
  exact (hsteps budget hbudget).2

/-- A wait of three centuries is well timed, but no device can sleep it: the replay ends before the
gesture. -/
theorem endless_wait_ends_replay :
    let late := Decimal.nearest false ⟨1, 10⟩
    let inputs : List TimedInput := [⟨some late, .mouse (.int 1) (.int 2) .left true⟩]
    let gestures : List Gesture := [⟨late, 1, 2, .left⟩]
    let recorded := (Recording.record (.zero false) inputs).1.instructions.toList
    let m : Machine := {}
    Recording.presses (.zero false) inputs = gestures.flatMap Gesture.presses ∧
    wellTimed (.zero false) gestures = true ∧ m.device.faults = [] ∧
    ∃ source program, Listing.source (Listing.readerOf m) {} recorded = (.ok source, #[]) ∧
      (compile false source).1 = .program program ∧
      let run := (m.load program).execute 100 []
      run.2 = .returned ∧ run.1.machine.device.events.toList = [.sleep Standard.delay] ∧
      run.1.machine.device.events.toList ≠
        .sleep Standard.delay :: (paced (.zero false) gestures).flatMap Paced.replayed := by
  intro late inputs gestures recorded m
  let listing : List String := Listing.header {} ++ ["wait 10000000000.0", "move 1 2 ", "click left"]
  exact ⟨by decide +kernel, by decide +kernel, rfl, "\n".intercalate listing,
    (Standard.initial false ++ recorded.map Instruction.reread).toArray, by decide +kernel, by decide +kernel,
    by decide +kernel⟩

end PointerScript
