import SwarmSampler.Files
import SwarmSampler.Settings.Read
import SwarmSampler.Yaml.Document

/-
Loading settings from a file. A file whose extension is `json` in any letter
case is read as JSON, every other one as YAML; an empty YAML document sets
nothing.
-/

namespace SwarmSampler.Settings

/-- Why settings could not be loaded. -/
inductive LoadFault
  | unreadable (path : String) (reason : String)
  | malformed
  /-- A span overflowed, which ends the program. -/
  | overflow
  | invalid (fault : Fault)
  deriving DecidableEq

/-- Settings from a document if they can be read. Whether a span overflows is decided by what
comes before the first mistake. -/
def ofLeading {δ : Type} [TaggedDocument δ] (settings : Option Settings) (leading : δ) :
    Except LoadFault Settings :=
  match settings with
  | some settings => .ok settings
  | none => .error (if overflows leading then .overflow else .malformed)

def ofDocument {δ : Type} [TaggedDocument δ] (v : δ) : Except LoadFault Settings :=
  ofLeading (ofDocument? v) v

def ofJson (text : String) : Except LoadFault Settings :=
  ofLeading ((Json.read? text).bind ofDocument?) (Json.leading text)

def ofYaml (text : String) : Except LoadFault Settings :=
  match Yaml.parse? text with
  | some none => .ok standard
  | document => ofLeading (document.join.bind ofDocument?) (Yaml.leading text)

/-- Settings from text, in the form the path's extension says. -/
def ofText (path text : String) : Except LoadFault Settings :=
  if Path.hasExtension path.toList "json".toList then ofJson text else ofYaml text

def readText (files : Files) (path : String) : Except String String :=
  match files.read path.toList with
  | .error fault => .error fault.message
  | .ok bytes =>
    match Text.ofBytes? bytes with
    | none => .error "stream did not contain valid UTF-8"
    | some text => .ok text

/-- Loads settings and holds them to their bounds. -/
def load (files : Files) (path : String) : Except LoadFault Settings :=
  match readText files path with
  | .error reason => .error (.unreadable path reason)
  | .ok text =>
    match ofText path text with
    | .error fault => .error fault
    | .ok settings =>
      match settings.fault? with
      | some fault => .error (.invalid fault)
      | none => .ok settings

/-- The failure of the program that a fault amounts to, none where only its kind is told. -/
def LoadFault.detail? : LoadFault → Option String
  | unreadable path reason => some ("cannot read " ++ path ++ ": " ++ reason)
  | malformed => none
  | overflow => none
  | invalid fault => some fault.message

end SwarmSampler.Settings
