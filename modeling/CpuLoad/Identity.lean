import CpuLoad.Blank
import CpuLoad.Fault

/-!
Who made a processor and which one it is. On a system that describes its processors in a text of `key: value` lines, the
fields of the first processor's block replace the ones known otherwise, each on its own. A source may know a value of
any shape in place of a text.
-/
namespace CpuLoad
open CpuLoad.Blank

/-- Vendor, model and serial number of a processor. -/
structure Identity where
  vendor : Value := .text "unknown"
  name : Value := .text "unknown"
  family : Value := .text "?"
  model : Value := .text "?"
  stepping : Value := .text "?"
  is64Bit : Value := .bool false
  serialNumber : Value := .null
  deriving Inhabited

namespace Identity

/-- The maker as it stands before the family: one vendor goes by the names of its two architectures. -/
def maker (p : Identity) : Value :=
  if p.vendor.sameKey (.text "GenuineIntel") then .text (if p.is64Bit.truth then "Intel64" else "x86") else p.vendor

/-- One line that tells a processor from others, such as `Intel64 Family 6 Model 158 Stepping 10`. -/
def identifier (p : Identity) : Except Fault String := do
  let maker ← p.maker.spelled
  let family ← p.family.spelled
  let model ← p.model.spelled
  return maker ++ " Family " ++ family ++ " Model " ++ model ++ " Stepping " ++ (← p.stepping.spelled)

/-- The name where only a text will do. -/
def nameText (p : Identity) : Except Fault String :=
  match p.name with
  | .text s => .ok s
  | _ => .error .wrongKind

def is64BitMachine (machine : String) : Bool :=
  machine.toList.reverse.take 2 == ['4', '6'] || machine = "s390x"

def is64BitName : Value → Except Fault Bool
  | .text machine => .ok (is64BitMachine machine)
  | _ => .error .notText

def ofPlatform (machine processor : String) : Identity :=
  { name := .text (if processor ≠ "" then processor else if machine ≠ "" then machine else "unknown")
    is64Bit := .bool (is64BitMachine machine) }

/-! ### Described processors -/

/-- The text before the first colon of a line and the text after it. -/
def splitColon : List Char → Option (List Char × List Char)
  | [] => none
  | ':' :: rest => some ([], rest)
  | c :: rest => (splitColon rest).map fun (key, value) => (c :: key, value)

/-- The field of a line, without the blanks around its key and its value. -/
def field? (line : List Char) : Option (String × String) :=
  (splitColon line).map fun (key, value) => (String.ofList (trim key), String.ofList (trim value))

/-- The fields of the first block of lines, given those read before. A blank line ends the block once it has a field,
    and of two fields with one key the first counts. -/
def blockFields (fields : List (String × String)) : List (List Char) → List (String × String)
  | [] => fields
  | line :: rest =>
    if trim line = [] then if fields = [] then blockFields [] rest else fields
    else match field? line with
      | none => blockFields fields rest
      | some (key, value) =>
        if (fields.lookup key).isSome then blockFields fields rest
        else blockFields (fields ++ [(key, value)]) rest

/-- The fields of the first processor that a text describes. -/
def fieldsOf (text : String) : List (String × String) := blockFields [] (lines text.toList)

/-- The identity with the fields of a described processor and a serial number in place of its own. -/
def withFields (fields : List (String × String)) (serial : String) (fallback : Identity) : Identity :=
  let own (key : String) (known : Value) : Value := ((fields.lookup key).map Value.text).getD known
  let flags := wordsOf ((fields.lookup "flags").getD "")
  { vendor := own "vendor_id" fallback.vendor
    name := own "model name" fallback.name
    family := own "cpu family" fallback.family
    model := own "model" fallback.model
    stepping := own "stepping" fallback.stepping
    is64Bit := if flags = [] then fallback.is64Bit else .bool (flags.contains "lm")
    serialNumber := if trimText serial = "" then fallback.serialNumber else .text (trimText serial) }

end Identity
end CpuLoad
