import Mathlib.Data.List.Nodup
import Mathlib.Logic.Function.Basic
import PointerScript.Proofs.Json.Texts
import PointerScript.Settings

/-! The settings and their file. A table that holds a value for each of the settings, beside its operations, is stored
as an object with these values. Where the values can be read and their texts have bytes, every table that loads the file
holds the same values afterwards. -/

namespace PointerScript

open Text

namespace Files

theorem locate_settings (files : Files) (creating : Bool) :
    files.locate creating Settings.defaultPath = .ok [Settings.defaultPath] := by
  have hsteps : Place.stepsOf Settings.defaultPath = [Settings.defaultPath] := by decide +kernel
  rw [locate, hsteps]
  rfl

theorem nodeAt?_settings (files : Files) : files.nodeAt? [Settings.defaultPath] = files.find? Settings.defaultPath := by
  rw [find?, locate_settings]
  rfl

theorem lookup_put (files : Files) (place : Place) (node : FileNode) :
    (files.put place node).lookup place.key = some node := by
  have hnone : (files.filter (·.1 ≠ place.key)).lookup place.key = none := by
    rw [List.lookup_eq_none_iff]
    intro entry hentry
    have hne := of_decide_eq_true (List.mem_filter.mp hentry).2
    simpa using Ne.symm hne
  rw [put, List.lookup_append, hnone, Option.none_or, List.lookup_cons_self]

theorem find?_put_settings (files : Files) (node : FileNode) :
    (files.put [Settings.defaultPath] node).find? Settings.defaultPath = some node := by
  rw [← nodeAt?_settings, nodeAt?]
  · rw [lookup_put]
    rfl
  · decide
  · decide
  · intro _ he
    exact absurd (List.cons.inj he).1 (by decide)

/-- The text that is read from what a path leads to. -/
def textOf (path : String) : Option FileNode → Except FileFault String
  | none => .error (.notFound path)
  | some .directory => .error (.isDirectory path)
  | some (.file bytes) =>
    ((decode bytes).map fun text => String.ofList (unifyNewlines text.toList)).mapError .notText

theorem readText_settings (files : Files) :
    files.readText Settings.defaultPath = textOf Settings.defaultPath (files.find? Settings.defaultPath) := by
  rw [readText, locate_settings]
  dsimp only [bind, Except.bind]
  rw [nodeAt?_settings]
  rcases files.find? Settings.defaultPath with _ | bytes | _
  · rfl
  · dsimp only [textOf]
    cases decode bytes <;> rfl
  · rfl

theorem writePieces_settings {files : Files} {bytes : Bytes}
    (h : files.find? Settings.defaultPath = some (.file bytes)) (pieces : List WideText) :
    files.writePieces Settings.defaultPath pieces =
      (files.put [Settings.defaultPath] (.file (encodePieces pieces).1), (encodePieces pieces).2.map .notBytes) := by
  have hplace : files.placeToWrite Settings.defaultPath = .ok [Settings.defaultPath] := by
    rw [placeToWrite, locate_settings]
    dsimp only [bind, Except.bind]
    rw [nodeAt?_settings, h]
    rfl
  rw [writePieces, hplace]

end Files

namespace Settings

/-! ## Names as keys -/

theorem string?_eq_some {key : WideText} {name : String} : key.string? = some name ↔ key = keyOf name := by
  rw [WideText.string?]
  constructor
  · intro h
    split at h
    · cases h
    · rename_i hhalf
      have hwhole : IsWhole key := by
        simpa [IsWhole] using hhalf
      obtain rfl := Option.some.inj h
      rw [keyOf, String.toList_ofList, hwhole.ofChars_chars]
  · rintro rfl
    have hhalf : (keyOf name).any CodePoint.isHalf = false := by
      simpa [IsWhole, keyOf] using isWhole_ofChars name.toList
    rw [hhalf, keyOf, WideText.chars_ofChars, String.ofList_toList]
    rfl

theorem keyOf_inj {name other : String} : keyOf name = keyOf other ↔ name = other := by
  constructor
  · intro h
    exact Option.some.inj ((string?_eq_some.mpr rfl).symm.trans (string?_eq_some.mpr h))
  · rintro rfl
    rfl

/-! ## Storing -/

def names : List String :=
  ["clear_terminal_on_run", "print_debug_msg", "text_size", "dark_mode", "notify_when_program_ends", "pause_resume_key"]

/-- The table in which every setting has its value, and every operation is in its place. -/
def holding (host : Host) (v : String → Json) : Settings where
  host := host
  attributes := (names.map fun name => (name, .value (v name))) ++ operationNames.map fun name => (name, .operation)

def tableOf (v : String → Json) : Json :=
  .obj (names.map fun name => (keyOf name, v name))

def piecesOf (v : String → Json) : List WideText :=
  (tableOf v).pieces

/-- Whether the values can be read from a file of settings. All values that come from a file can, and so can those that
the table starts with. -/
def AreReadable (host : Host) (v : String → Json) : Prop :=
  ∀ name ∈ names, Json.Readable (host.depthLimit - 1) (v name)

/-- Whether all texts inside the values have bytes. -/
def AreWhole (v : String → Json) : Prop :=
  ∀ name ∈ names, (v name).Whole

/-- Whether the values can be stored: their texts have bytes, and they are not nested too deep for the host. -/
structure AreStorable (host : Host) (v : String → Json) : Prop where
  whole : AreWhole v
  lines : ∀ name ∈ names, host.writesLine (v name) = true
  pieces : host.cut? (tableOf v) = none

theorem startingOn_eq_holding (host : Host) : startingOn host = holding host (startingOn host).value := rfl

theorem forall_mem_names {p : String → Prop} : (∀ name ∈ names, p name) ↔
    p "clear_terminal_on_run" ∧ p "print_debug_msg" ∧ p "text_size" ∧ p "dark_mode" ∧ p "notify_when_program_ends" ∧
      p "pause_resume_key" := by
  simp only [names, List.forall_mem_cons, List.not_mem_nil, false_imp_iff, implies_true, and_true]

/-- Flat values can be stored on every host. -/
theorem areStorable_of_flat (host : Host) {v : String → Json} (h : ∀ name ∈ names, (v name).isFlat = true)
    (hw : AreWhole v) : AreStorable host v := by
  refine ⟨hw, fun name hname => host.writesLine_flat _ (h name hname), host.cut?_flat _ fun entry hentry => ?_⟩
  obtain ⟨name, hname, rfl⟩ := List.mem_map.mp hentry
  exact h name hname

section Storing

variable {host : Host} {v w : String → Json} {files : Files} {bytes : Bytes}

theorem holding_congr (h : ∀ name ∈ names, v name = w name) : holding host v = holding host w := by
  rw [holding, holding, List.map_congr_left fun name hname => by rw [h name hname]]

theorem lookup_holding (host : Host) (v : String → Json) {name : String} (h : name ∈ names) :
    (holding host v).attributes.lookup name = some (.value (v name)) := by
  rw [holding, List.lookup_append, List.lookup_graph (fun name => Attribute.value (v name)) h, Option.some_or]

theorem lookup_holding_of_not_mem (host : Host) (v : String → Json) {name : String} (h : name ∉ names) :
    (holding host v).attributes.lookup name = (operationNames.map fun name => (name, .operation)).lookup name := by
  rw [holding, List.lookup_append, List.lookup_eq_none_iff.mpr, Option.none_or]
  intro entry hentry
  obtain ⟨other, hother, rfl⟩ := List.mem_map.mp hentry
  have hne : name ≠ other := by
    rintro rfl
    exact h hother
  simpa using hne

theorem value_holding (host : Host) (v : String → Json) {name : String} (h : name ∈ names) :
    (holding host v).value name = v name := by
  rw [value, get?, lookup_holding host v h]
  rfl

theorem kept_holding (host : Host) (v : String → Json) :
    (holding host v).kept = names.map fun name => (name, v name) := rfl

/-- The values are collected just if each can be written on one line. -/
theorem toStore_holding (host : Host) (v : String → Json) : (holding host v).toStore =
    if ∀ name ∈ names, host.writesLine (v name) = true then .ok (names.map fun name => (name, v name))
    else .error (.tooDeep "maximum recursion depth exceeded while encoding a JSON object") := by
  have hall : ((holding host v).kept.all fun entry => (holding host v).host.writesLine entry.2) =
      decide (∀ name ∈ names, host.writesLine (v name) = true) := by
    rw [kept_holding, List.all_map, Bool.eq_iff_iff, List.all_eq_true, decide_eq_true_iff]
    rfl
  have hstore : (holding host v).guardOperation "store_to_file" = .ok () := rfl
  have hcollect : (holding host v).guardOperation "_get_serializable_attrs" = .ok () := rfl
  rw [toStore, hstore, collect, hcollect, hall, kept_holding]
  dsimp only [bind, Except.bind]
  split <;> rename_i h
  · rw [if_pos (of_decide_eq_true h)]
    rfl
  · rw [if_neg fun hlines => h (decide_eq_true hlines)]
    rfl

theorem readable_tableOf (hv : AreReadable host v) : Json.Readable host.depthLimit (tableOf v) := by
  have hdepth : host.depthLimit = host.depthLimit - 1 + 1 := (Nat.sub_add_cancel host.depthLimit_pos).symm
  rw [hdepth, tableOf]
  refine Json.Readable.obj ?_ ?_
  · rw [List.map_map]
    exact List.Nodup.map (fun _ _ he => keyOf_inj.mp he) (by decide : names.Nodup)
  · intro entry hentry
    obtain ⟨name, hname, rfl⟩ := List.mem_map.mp hentry
    exact hv name hname

theorem whole_tableOf : (tableOf v).Whole ↔ AreWhole v := by
  rw [tableOf, Json.whole_obj, List.forall_mem_map]
  exact forall₂_congr fun name _ => and_iff_right (isWhole_ofChars name.toList)

theorem isWhole_piecesOf (hv : AreReadable host v) : IsWhole (piecesOf v).flatten ↔ AreWhole v :=
  (Json.isWhole_pointsAt (readable_tableOf hv) 0).trans whole_tableOf

theorem store_holding_of_lines (hlines : ∀ name ∈ names, host.writesLine (v name) = true) :
    (holding host v).store files defaultPath = writeOut host files defaultPath (tableOf v) := by
  have hparents : (Place.named defaultPath).tail = [] := by decide +kernel
  rw [store, toStore_holding, if_pos hlines, hparents]
  dsimp only [Files.makeDirectories]
  rw [List.map_map]
  rfl

theorem writeOut_of_uncut (h : files.find? defaultPath = some (.file bytes))
    (hpieces : host.cut? (tableOf v) = none) : writeOut host files defaultPath (tableOf v) =
      (files.put [defaultPath] (.file (encodePieces (piecesOf v)).1),
        ((encodePieces (piecesOf v)).2.map .notBytes).map .file) := by
  rw [writeOut, hpieces]
  dsimp only
  rw [← piecesOf, Files.writePieces_settings h]

/-- Where there is a file, the settings are stored just if they can be. -/
theorem store_holding_eq_none (hv : AreReadable host v) (h : files.find? defaultPath = some (.file bytes)) :
    ((holding host v).store files defaultPath).2 = none ↔ AreStorable host v := by
  by_cases hlines : ∀ name ∈ names, host.writesLine (v name) = true
  · rw [store_holding_of_lines hlines]
    cases hpieces : host.cut? (tableOf v) with
    | none =>
      rw [writeOut_of_uncut h hpieces, Option.map_eq_none_iff, Option.map_eq_none_iff, encodePieces_eq_none,
        isWhole_piecesOf hv]
      exact ⟨fun hw => ⟨hw, hlines, hpieces⟩, AreStorable.whole⟩
    | some cut =>
      rw [writeOut, hpieces]
      refine iff_of_false (Option.some_ne_none _) fun hs => ?_
      rw [hs.pieces] at hpieces
      cases hpieces
  · rw [store, toStore_holding, if_neg hlines]
    exact iff_of_false (Option.some_ne_none _) fun hs => hlines hs.lines

theorem store_holding_of_storable (hv : AreReadable host v) (hs : AreStorable host v)
    (h : files.find? defaultPath = some (.file bytes)) :
    (holding host v).store files defaultPath = (files.put [defaultPath] (.file (encodePieces (piecesOf v)).1), none) := by
  rw [store_holding_of_lines hs.lines, writeOut_of_uncut h hs.pieces,
    encodePieces_eq_none.mpr ((isWhole_piecesOf hv).mpr hs.whole)]
  rfl

end Storing

/-! ## Loading -/

/-- What a file of settings holds: something that cannot be loaded, text that is no JSON, or an object. -/
inductive Content where
  | refused (fault : SettingsFault)
  | notJson
  | table (entries : List (WideText × Json))

namespace Content

def ofRead : Json.Attempt Json → Content
  | .error .notJson => notJson
  | .error (.limit cause) => refused (.limit cause)
  | .ok (.obj entries) => table entries
  | .ok json => refused (.notATable json.kindName)

/-- The content that a host finds in some bytes. -/
def ofBytes (host : Host) (bytes : Bytes) : Content :=
  match decode bytes with
  | .error fault => refused (.file (.notText fault))
  | .ok text => ofRead (Json.read host.depthLimit (String.ofList (unifyNewlines text.toList)))

end Content

section Loading

variable {host : Host} {v w : String → Json} {files : Files} {bytes : Bytes} {entries : List (WideText × Json)}

/-- Settings that are stored are found in the file. -/
theorem ofBytes_stored (hv : AreReadable host v) (hw : AreWhole v) :
    Content.ofBytes host (encodePieces (piecesOf v)).1 = .table (names.map fun name => (keyOf name, v name)) := by
  have hreadable := readable_tableOf hv
  have hnewlines := unifyNewlines_eq_self (Json.return_not_mem_charsAt hreadable 0)
  have hread := Json.read_pieces hreadable (whole_tableOf.mpr hw)
  rw [encodePieces_of_isWhole ((isWhole_piecesOf hv).mpr hw), Content.ofBytes, decode_bytesOf]
  dsimp only
  rw [String.toList_ofList]
  rw [Json.charsAt, Json.pointsAt, ← Json.pieces] at hnewlines
  rw [piecesOf, hnewlines, hread, tableOf, Content.ofRead]

/-- What is printed about a file that is no JSON. -/
def unreadableMessage : String :=
  "Failed to read " ++ defaultPath ++ ", recreating with defaults...\n"

/-- What loading does with the content of a file. -/
def loadContent (s : Settings) (files : Files) : Content → Loaded
  | .refused fault => { settings := s, files := files, fault := some fault }
  | .notJson => s.restore files defaultPath unreadableMessage
  | .table entries => { settings := (s.setAll entries).1, files := files, fault := (s.setAll entries).2 }

theorem load_holding (host : Host) (v : String → Json) (h : files.find? defaultPath = some (.file bytes)) :
    (holding host v).load files defaultPath = (holding host v).loadContent files (.ofBytes host bytes) := by
  have hguard : (holding host v).guardOperation "load_from_file" = .ok () := rfl
  rw [load, hguard, Files.readText_settings, h, Content.ofBytes, Files.textOf]
  cases decode bytes with
  | error fault => rfl
  | ok text =>
    have hhost : (holding host v).host = host := rfl
    dsimp only [Except.map, Except.mapError]
    rw [hhost]
    rcases Json.read host.depthLimit (String.ofList (unifyNewlines text.toList)) with
      (_ | _) | (_ | _ | _ | _ | _ | _) <;> rfl

theorem setEntry_values {name : String} {value : Json} {ns : List String} (h : name ∈ ns) (hnodup : ns.Nodup)
    (others : List (String × Attribute)) :
    setEntry name value ((ns.map fun n => (n, .value (v n))) ++ others) =
      (ns.map fun n => (n, .value (Function.update v name value n))) ++ others := by
  induction ns with
  | nil => cases h
  | cons n ns ih =>
    rw [List.nodup_cons] at hnodup
    rw [List.map_cons, List.cons_append, setEntry, List.map_cons, List.cons_append]
    by_cases he : n = name
    · subst he
      have hsame : ∀ m ∈ ns, Function.update v n value m = v m := by
        intro m hm
        refine Function.update_of_ne ?_ value v
        rintro rfl
        exact hnodup.1 hm
      rw [if_pos rfl, Function.update_self, List.map_congr_left fun m hm => by rw [← hsame m hm]]
    · rw [if_neg he, Function.update_of_ne he, ih ((List.mem_cons.mp h).resolve_left (Ne.symm he)) hnodup.2]

/-- The names that the table knows without having a setting for them. -/
def IsReserved (host : Host) (name : String) : Prop :=
  name ∈ operationNames ∨ name ∈ host.builtinNames

/-- Whether some entries have no reserved name. -/
def KeepsTo (host : Host) (entries : List (WideText × Json)) : Prop :=
  ∀ name, IsReserved host name → keyOf name ∉ entries.map Prod.fst

theorem knows_holding (host : Host) (v : String → Json) (name : String) :
    (holding host v).knows name = true ↔ name ∈ names ∨ IsReserved host name := by
  simp [knows, holding, IsReserved, or_assoc]

theorem not_isReserved_of_mem_names {name : String} (h : name ∈ names) : ¬ IsReserved host name := by
  have hnone : ∀ name ∈ names, name ∉ operationNames ∧ ¬ ("__".toList.isPrefixOf name.toList = true ∨ name = "mro") := by
    decide
  rintro (hoperation | hbuiltin)
  · exact (hnone name h).1 hoperation
  · exact (hnone name h).2 (host.builtin_marked name hbuiltin)

theorem refusal?_of_mem_names (s : Settings) {name : String} (h : name ∈ names) (value : Json) :
    s.refusal? name value = none := by
  revert name
  rw [forall_mem_names]
  exact ⟨rfl, rfl, rfl, rfl, rfl, rfl⟩

/-- The values after those of some entries were put in their places. -/
def overlay (v : String → Json) (entries : List (WideText × Json)) (name : String) : Json :=
  (entries.lookup (keyOf name)).getD (v name)

theorem lookup_keyOf {name : String} {ns : List String} (h : name ∈ ns) :
    (ns.map fun n => (keyOf n, v n)).lookup (keyOf name) = some (v name) := by
  induction ns with
  | nil => cases h
  | cons n ns ih =>
    rw [List.map_cons, List.lookup_cons]
    by_cases he : name = n
    · rw [he, BEq.rfl]
    · rw [beq_false_of_ne (mt keyOf_inj.mp he), ih ((List.mem_cons.mp h).resolve_left he)]

theorem overlay_cons_of_ne (v : String → Json) {entry : WideText × Json} {name : String} (h : keyOf name ≠ entry.1)
    (entries : List (WideText × Json)) : overlay v (entry :: entries) name = overlay v entries name := by
  rw [overlay, List.lookup_cons, beq_false_of_ne h, overlay]

theorem overlay_cons {name : String} {value : Json} (h : keyOf name ∉ entries.map Prod.fst) :
    overlay v ((keyOf name, value) :: entries) = overlay (Function.update v name value) entries := by
  funext other
  by_cases he : other = name
  · subst he
    have hnone : entries.lookup (keyOf other) = none := by
      rw [List.lookup_eq_none_iff]
      intro entry hentry
      simpa using fun he => h (List.mem_map.mpr ⟨entry, hentry, he.symm⟩)
    rw [overlay, overlay, hnone, List.lookup_cons_self, Function.update_self, Option.getD_some, Option.getD_none]
  · rw [overlay_cons_of_ne v (mt keyOf_inj.mp he), overlay, overlay, Function.update_of_ne he]

theorem setAll_cons_of_unknown {s : Settings} {entry : WideText × Json}
    (h : ∀ name, entry.1 = keyOf name → s.knows name = false) : s.setAll (entry :: entries) = s.setAll entries := by
  have hnone : entry.1.string?.filter s.knows = none := by
    rw [Option.filter_eq_none_iff]
    intro name hname
    rw [h name (string?_eq_some.mp hname)]
    exact Bool.false_ne_true
  rw [setAll, hnone]

theorem setAll_cons_of_set {s t : Settings} {name : String} {value : Json} (hknows : s.knows name = true)
    (hset : s.set name value = .ok t) : s.setAll ((keyOf name, value) :: entries) = t.setAll entries := by
  rw [setAll, string?_eq_some.mpr rfl, Option.filter_some, if_pos hknows]
  dsimp only
  rw [hset]

theorem setAll_cons_of_refused {s : Settings} {name : String} {value : Json} {fault : SettingsFault}
    (hknows : s.knows name = true) (hset : s.set name value = .error fault) :
    s.setAll ((keyOf name, value) :: entries) = (s, some fault) := by
  rw [setAll, string?_eq_some.mpr rfl, Option.filter_some, if_pos hknows]
  dsimp only
  rw [hset]

theorem set_holding (host : Host) (v : String → Json) {name : String} (h : name ∈ names) (value : Json) :
    (holding host v).set name value = .ok (holding host (Function.update v name value)) := by
  rw [set, refusal?_of_mem_names _ h]
  exact congrArg (fun attributes => Except.ok (Settings.mk host attributes)) (setEntry_values h (by decide) _)

/-- Entries that give values to settings only take effect one and all. -/
theorem setAll_holding (hnodup : (entries.map Prod.fst).Nodup) (h : KeepsTo host entries) :
    (holding host v).setAll entries = (holding host (overlay v entries), none) := by
  induction entries generalizing v with
  | nil => rfl
  | cons entry entries ih =>
    rw [List.map_cons, List.nodup_cons] at hnodup
    have hothers {w : String → Json} := @ih w hnodup.2 fun name hname hmem => h name hname (List.mem_cons_of_mem _ hmem)
    by_cases hname : ∃ name ∈ names, entry.1 = keyOf name
    · obtain ⟨name, hname, he⟩ := hname
      obtain ⟨key, value⟩ := entry
      obtain rfl : key = keyOf name := he
      have hknows := (knows_holding host v name).mpr (.inl hname)
      rw [setAll_cons_of_set hknows (set_holding host v hname value), overlay_cons hnodup.1]
      exact hothers
    · rw [setAll_cons_of_unknown, hothers]
      · refine congrArg (·, none) (holding_congr fun name hmem => (overlay_cons_of_ne v ?_ entries).symm)
        intro he
        exact hname ⟨name, hmem, he.symm⟩
      · intro name he
        rw [← Bool.not_eq_true, knows_holding]
        rintro (hmem | hreserved)
        · exact hname ⟨name, hmem, he⟩
        · exact h name hreserved (he ▸ List.mem_cons_self)

/-- Whether the values are in the file: whatever a table holds, after loading it holds these. -/
def AreStored (host : Host) (v : String → Json) (files : Files) : Prop :=
  ∀ w, (holding host w).load files defaultPath = { settings := holding host v, files := files }

/-- Settings that are written are stored. -/
theorem areStored_put (hv : AreReadable host v) (hw : AreWhole v) (files : Files) :
    AreStored host v (files.put [defaultPath] (.file (encodePieces (piecesOf v)).1)) := by
  intro w
  have hset : (holding host w).setAll (names.map fun name => (keyOf name, v name)) = (holding host v, none) := by
    rw [setAll_holding]
    · refine congrArg (·, none) (holding_congr fun name hname => ?_)
      rw [overlay, lookup_keyOf hname, Option.getD_some]
    · exact (readable_tableOf hv).of_obj.1
    · intro name hname hmem
      obtain ⟨entry, hentry, he⟩ := List.mem_map.mp hmem
      obtain ⟨other, hother, rfl⟩ := List.mem_map.mp hentry
      exact not_isReserved_of_mem_names hother (keyOf_inj.mp he ▸ hname)
  rw [load_holding host w (files.find?_put_settings _), ofBytes_stored hv hw, loadContent, hset]

theorem readable_of_ofBytes (h : Content.ofBytes host bytes = .table entries) :
    Json.Readable host.depthLimit (.obj entries) := by
  rw [Content.ofBytes] at h
  split at h
  · cases h
  · rename_i text _
    cases hread : Json.read host.depthLimit (String.ofList (unifyNewlines text.toList)) with
    | error fault =>
      rw [hread] at h
      cases fault <;> cases h
    | ok json =>
      rw [hread] at h
      cases json with
      | obj others =>
        cases h
        exact Json.readable_of_read hread
      | _ => cases h

/-- The values that come from a file can be read again. -/
theorem areReadable_overlay (hv : AreReadable host v) (h : Content.ofBytes host bytes = .table entries) :
    AreReadable host (overlay v entries) := by
  intro name hname
  rw [overlay]
  cases hlookup : entries.lookup (keyOf name) with
  | none => exact hv name hname
  | some value =>
    obtain ⟨before, after, he, _⟩ := List.lookup_eq_some_iff.mp hlookup
    exact (readable_of_ofBytes h).of_obj.2 (keyOf name, value) (by simp [he])

/-- Settings can be stored in a file only: of anything else something is printed. -/
theorem exists_file_of_areStored (h : AreStored host v files) :
    ∃ bytes, files.find? defaultPath = some (.file bytes) := by
  have hguard : (holding host v).guardOperation "load_from_file" = .ok () := rfl
  have hload := h v
  rw [load, hguard, Files.readText_settings] at hload
  rcases hnode : files.find? defaultPath with _ | bytes | _
  · rw [hnode] at hload
    have hprinted : defaultPath ++ " not found, creating it with defaults...\n" = "" := congrArg Loaded.printed hload
    exact absurd hprinted (by decide)
  · exact ⟨bytes, rfl⟩
  · rw [hnode] at hload
    have hprinted : unreadableMessage = "" := congrArg Loaded.printed hload
    exact absurd hprinted (by decide)

end Loading

end Settings

end PointerScript
