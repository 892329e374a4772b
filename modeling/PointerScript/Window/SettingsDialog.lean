import PointerScript.Json.Shown
import PointerScript.Log
import PointerScript.Settings
import PointerScript.Tool.KeyCode

/-! The dialog for the settings. -/

namespace PointerScript

inductive SettingsBox where
  | debugging
  | clearing
  | dark
  | notifying
  deriving DecidableEq

def SettingsBox.ofName : String → SettingsBox
  | "debug" => debugging
  | "clear" => clearing
  | "dark" => dark
  | _ => notifying

/-- What the user does in the dialog. `capture` asks for a pause key and types keys until one is
taken; a key event may come without a key. -/
inductive SettingsAct where
  | check (box : SettingsBox) (on : Bool)
  | slide (value : Int)
  | apply
  | close
  | key (code : Option Int)
  | capture (codes : List (Option Int))
  | nothing
  deriving DecidableEq

/-- The dialog: its boxes, its slider for the size of text, its pause key, and whether it is open. -/
structure SettingsDialog where
  debugging : Bool
  clearing : Bool
  dark : Bool := false
  notifying : Bool
  slider : Number
  key : Json
  isOpen : Bool := true

/-- What can be seen of the dialog: a key that it does not use, the key that is shown after one was
asked for, and its controls. -/
inductive SettingsSign where
  | unusedKey (code : Int)
  | keyShown (text : String) (key : Json)
  | controls (debugging clearing notifying : Bool) (slider : Number) (keyText : String)

namespace SettingsDialog

def leastSize : Number := .int 5
def mostSize : Number := .int 20

def clamp (n : Number) : Number :=
  if n.lt leastSize then leastSize else if mostSize.lt n then mostSize else n

def numberOf : Json → Number
  | .num n => n
  | json => .int (if json.truthy then 1 else 0)

/-- The dialog as it is opened. The box for dark mode always starts empty. -/
def ofSettings (s : Settings) : SettingsDialog where
  debugging := (s.value "print_debug_msg").truthy
  clearing := (s.value "clear_terminal_on_run").truthy
  notifying := (s.value "notify_when_program_ends").truthy
  slider := clamp (numberOf (s.value "text_size"))
  key := s.value "pause_resume_key"

def choices (d : SettingsDialog) : List (String × Json) :=
  [("print_debug_msg", .bool d.debugging), ("clear_terminal_on_run", .bool d.clearing),
    ("dark_mode", .bool d.dark), ("text_size", .num d.slider),
    ("notify_when_program_ends", .bool d.notifying), ("pause_resume_key", d.key)]

def putInto (d : SettingsDialog) (s : Settings) : Settings :=
  d.choices.foldl (fun s choice => { s with attributes := Settings.setEntry choice.1 choice.2 s.attributes }) s

def captured? (codes : List (Option Int)) : Option Int :=
  codes.findSome? fun code => code.filter KeyCode.isAllowed

def setBox (d : SettingsDialog) (on : Bool) : SettingsBox → SettingsDialog
  | .debugging => { d with debugging := on }
  | .clearing => { d with clearing := on }
  | .dark => { d with dark := on }
  | .notifying => { d with notifying := on }

/-- The dialog after an act that changes no setting. -/
def change (d : SettingsDialog) : SettingsAct → SettingsDialog
  | .check box on => d.setBox on box
  | .slide value => { d with slider := clamp (.int value) }
  | .close => { d with isOpen := false }
  | .key (some code) => if code = KeyCode.escape then { d with isOpen := false } else d
  | .capture codes =>
    match captured? codes with
    | some code => { d with key := .int code }
    | none => d
  | _ => d

def signOf (after : SettingsDialog) (host : Host) : SettingsAct → List SettingsSign
  | .key (some code) => if code = KeyCode.escape then [] else [.unusedKey code]
  | .capture _ => [.keyShown (host.keyName after.key) after.key]
  | _ => []

def controls (d : SettingsDialog) (host : Host) : SettingsSign :=
  .controls d.debugging d.clearing d.notifying d.slider (host.keyName d.key)

end SettingsDialog

/-- The settings while their dialog is open: the settings, the files, what was seen, the messages,
whether choices were applied, and how it failed. -/
structure SettingsSession where
  settings : Settings
  files : Files
  signs : Array SettingsSign := #[]
  log : Log := #[]
  applied : Bool := false
  fault : Option SettingsFault := none

namespace SettingsSession

/-- Applies the choices of the dialog: they take effect at once and are then stored. -/
def applyChoices (s : SettingsSession) (d : SettingsDialog) : SettingsSession :=
  let s := { s with settings := d.putInto s.settings, applied := true }
  match s.settings.store s.files Settings.defaultPath with
  | (files, none) =>
    { s with files := files, log := s.log.push ⟨"Editor", .info, "Saved settings"⟩ }
  | (files, some fault) => { s with files := files, fault := some fault }

/-- Plays what the user does until the dialog is closed or it fails. -/
def play (s : SettingsSession) (d : SettingsDialog) : List SettingsAct → SettingsSession
  | [] => s
  | act :: rest =>
    if !d.isOpen then s
    else
      let after := d.change act
      let s := if act = .apply then s.applyChoices d else s
      if s.fault.isSome then s
      else
        let host := s.settings.host
        let s := { s with signs := s.signs ++ (after.signOf host act).toArray |>.push (after.controls host) }
        s.play after rest

end SettingsSession

/-- Opens the dialog for the settings, which are loaded first, and plays what the user does. Gives
what was printed, too. -/
def Settings.edit (s : Settings) (files : Files) (acts : List SettingsAct) : SettingsSession × String :=
  let loaded := s.load files Settings.defaultPath
  let session : SettingsSession :=
    { settings := loaded.settings, files := loaded.files, fault := loaded.fault }
  match loaded.fault with
  | some _ => (session, loaded.printed)
  | none => (session.play (SettingsDialog.ofSettings loaded.settings) acts, loaded.printed)

end PointerScript
