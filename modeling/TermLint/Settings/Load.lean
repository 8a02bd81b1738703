/-
  TermLint.Settings.Load

  Settings from a file.  There may be no file, and then nothing is set; a file that
  cannot be used is reported with the reason.
-/

import TermLint.Frame.Source
import TermLint.Settings.Basic
import TermLint.Toml.Document

namespace TermLint.Settings

open Lint (ScanRule ActionRule)
open Shape (Mismatch)
open Toml (Data)

/-- What stands where the settings are looked for. -/
inductive Content where
  | absent
  | directory
  | file (bytes : List UInt8)
  deriving DecidableEq, Repr

/-- Why settings cannot be used. -/
inductive LoadFault where
  /-- A directory cannot be read. -/
  | directory
  /-- The file is not UTF-8. -/
  | notText
  /-- The text is not a document. -/
  | malformed
  /-- The document does not have the shape of settings. -/
  | mismatch (mismatch : Mismatch)
  deriving DecidableEq, Repr

/-- The wording of a mismatch in settings, in which reals are written positionally. -/
def mismatchMessage (mismatch : Mismatch) : String :=
  mismatch.message Decimal.Layout.positional

/-- The part of the data of settings that is looked at.  A record that is written as an array ends
with its last field, and nobody looks at the items beyond it. -/
def relevant (data : Data) : Data :=
  (((data.mapEntry "log" (·.cut LogSettings.fields.size)).mapEntry "server"
    (·.cut ServerSettings.fields.size)).mapEntry "rules"
      (·.mapItems (·.cut ScanRule.fields.size))).mapEntry "code_action"
        (·.cut ActionRule.fields.size)

/-- The settings that a text holds.  Keys without a meaning are passed over, though a number at one
must have a value.  Integers of more than 64 bits and, beyond the last field of a record, numbers
without a value can be passed over too, but where the shape is wrong a document that has one counts
as malformed. -/
def parse (text : String) : Except LoadFault Settings :=
  match Toml.parse text with
  | .error _ => .error .malformed
  | .ok data =>
    match (relevant data).toValue? with
    | .none => .error .malformed
    | some v =>
      match shape.ofValue v with
      | .ok settings => .ok settings
      | .error m => if data.isNarrow then .error (.mismatch m) else .error .malformed

/-- The settings that are found, if there are any. -/
def load : Content → Except LoadFault (Option Settings)
  | .absent => .ok .none
  | .directory => .error .directory
  | .file bytes =>
    match Frame.textOf? bytes with
    | .none => .error .notText
    | some text => (parse text).map some

/-- The settings to go by: what cannot be used is as good as nothing. -/
def effective (content : Content) : Settings :=
  match load content with
  | .ok (some settings) => settings
  | _ => none

end TermLint.Settings
