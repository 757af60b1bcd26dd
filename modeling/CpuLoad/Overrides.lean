import CpuLoad.Blank
import CpuLoad.Reading

/-!
Nine environment variables override settings of a document. The text of a variable is taken as it is, read as a double,
or read as a truth value. A section that is absent or no table becomes a table for it.
-/
namespace CpuLoad

/-- How the text of a variable is read. -/
inductive Override.Form
  | text
  | number
  | truth
  deriving DecidableEq, Inhabited

/-- A variable and the setting it overrides. -/
structure Override where
  name : String
  «section» : Option String
  key : String
  form : Override.Form
  deriving Inhabited

namespace Override

/-- All overrides, in the order in which they are applied. -/
def all : List Override := [
  ⟨"TICKLOAD_MODE", none, "mode", .text⟩,
  ⟨"TICKLOAD_SOURCE", some "sampler", "source", .text⟩,
  ⟨"TICKLOAD_REFRESH_THRESHOLD_MS", some "sampler", "refresh_threshold_ms", .number⟩,
  ⟨"TICKLOAD_NATIVE_DEBOUNCE_MS", some "sampler", "native_debounce_ms", .number⟩,
  ⟨"TICKLOAD_USE_NATIVE", some "sampler", "use_native", .truth⟩,
  ⟨"TICKLOAD_COLLECTOR_INTERVAL", some "collector", "interval_seconds", .number⟩,
  ⟨"TICKLOAD_OTEL_ENDPOINT", some "otel", "endpoint", .text⟩,
  ⟨"TICKLOAD_OTEL_SERVICE_NAME", some "otel", "service_name", .text⟩,
  ⟨"TICKLOAD_LOCAL_OUTPUT_DIR", some "local_exporter", "output_dir", .text⟩]

/-- The words that stand for true, in any case and between blanks. -/
def trueWords : List String := ["1", "true", "yes", "on"]

def read (o : Override) (text : String) : Except Fault Value :=
  match o.form with
  | .text => .ok (.text text)
  | .truth => .ok (.bool (trueWords.contains (String.ofList ((Blank.trim text.toList).map Char.toLower))))
  | .number =>
    match Numeral.float? text with
    | some x => .ok (.float x)
    | none => .error (.setting (.environment o.name text))

/-- Applies some overrides in turn to a document `δ`; `put` enters a value for an override's setting. -/
def applyEach {δ : Type} (put : Override → Value → δ → δ) (environment : String → Option String) :
    List Override → δ → Except Fault δ
  | [], document => .ok document
  | o :: rest, document =>
    match environment o.name with
    | none => applyEach put environment rest document
    | some text => do applyEach put environment rest (put o (← o.read text) document)

/-! ### On rows -/

/-- The rows of a document with a value entered for the override's setting. -/
def put (o : Override) (value : Value) (rows : List (Value × Value)) : List (Value × Value) :=
  match o.section with
  | none => Value.enter (.text o.key) value rows
  | some part =>
    let inner := match Value.lookup part rows with
      | some (.table inner) => inner
      | _ => []
    Value.enter (.text part) (.table (Value.enter (.text o.key) value inner)) rows

def apply (environment : String → Option String) (rows : List (Value × Value)) :
    Except Fault (List (Value × Value)) := applyEach put environment all rows

end Override
end CpuLoad
