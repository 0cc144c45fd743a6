import BuildVariants.Json.Printer
import BuildVariants.Variant

/-!
The structured log of a run: records about an operation on a project, in the order in which they
were made. The text of a log has one JSON object per line.
-/

set_option autoImplicit false
set_option relaxedAutoImplicit false

namespace BuildVariants

/-- A record of the run log. The extra data is an object, or absent. -/
structure LogRecord where
  level : String := "info"
  operation : String
  project : Option String := none
  variantKind : Option VariantKind := none
  buildType : Option String := none
  message : String
  extra : Option (List (String × Json)) := none

/-- A record as a JSON object, in which absent extra data has no member. -/
def LogRecord.toJson (r : LogRecord) : Json :=
  .obj ([("level", .str r.level), ("operation", .str r.operation),
    ("project", .optionalText r.project),
    ("variant_kind", .optionalText (r.variantKind.map (·.text))),
    ("build_type", .optionalText r.buildType), ("message", .str r.message)] ++
    (r.extra.map fun members => ("extra", Json.obj members)).toList)

/-- The records of a run in the order in which they were made. -/
structure RunLog where
  records : List LogRecord

namespace RunLog

def empty : RunLog := ⟨[]⟩

def append (log : RunLog) (records : List LogRecord) : RunLog := ⟨log.records ++ records⟩

/-- The records about a project, or about no project in particular, and of one kind of variants if
one is given. -/
def forProject (log : RunLog) (project : Option String) (kind : Option VariantKind) :
    List LogRecord :=
  log.records.filter fun r => r.project = project && (kind.isNone || r.variantKind = kind)

def forOperation (log : RunLog) (operation : String) : List LogRecord :=
  log.records.filter fun r => r.operation = operation

def warnings (log : RunLog) : List LogRecord := log.records.filter fun r => r.level = "warning"

/-- The log as text, one record per line. A log without records is an empty line. -/
def text (log : RunLog) : String :=
  "\n".intercalate (log.records.map fun r => r.toJson.line) ++ "\n"

end RunLog

end BuildVariants
