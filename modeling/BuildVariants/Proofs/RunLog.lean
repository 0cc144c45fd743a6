import BuildVariants.Proofs.Json.Printer
import BuildVariants.RunLog

/-!
The text of a log. Every line is printable ASCII, so the only line ends are those behind the
records: the text splits into the lines of the records. A line is a JSON document of one value only,
with the data of its record, and the record can be told from these data up to the order of the
members in its extra data. So the text determines the records.
-/

set_option autoImplicit false
set_option relaxedAutoImplicit false

namespace BuildVariants

namespace LogRecord

variable {r s : LogRecord}

/-- Records are equal as mappings: they agree in every field, and their extra data are the same data
or absent from both. -/
structure SameAs (r s : LogRecord) : Prop where
  level : r.level = s.level
  operation : r.operation = s.operation
  project : r.project = s.project
  variantKind : r.variantKind = s.variantKind
  buildType : r.buildType = s.buildType
  message : r.message = s.message
  extra : Option.Rel (fun members others => (Json.obj members).Same (.obj others)) r.extra s.extra

/-- A line encodes a record: it is a JSON document of one value only, which has the data of the
record. -/
def Encodes (line : List Char) (r : LogRecord) : Prop :=
  ∃ value : Json, (∀ other : Json, line ∈ other.documents ↔ other = value) ∧ value.Same r.toJson

def members (r : LogRecord) : List (String × Json) :=
  [("level", .str r.level), ("operation", .str r.operation), ("project", .optionalText r.project),
    ("variant_kind", .optionalText (r.variantKind.map (·.text))),
    ("build_type", .optionalText r.buildType), ("message", .str r.message)] ++
    (r.extra.map fun extra => ("extra", Json.obj extra)).toList

theorem toJson_eq (r : LogRecord) : r.toJson = .obj r.members := rfl

theorem keys_members (r : LogRecord) : r.members.map (·.1) =
    ["level", "operation", "project", "variant_kind", "build_type", "message"] ++
      if r.extra.isSome then ["extra"] else [] := by
  rw [members]
  cases r.extra with
  | none => rfl
  | some extra => rfl

theorem nodup_keys_members (r : LogRecord) : (r.members.map (·.1)).Nodup := by
  rw [keys_members]
  split <;> decide

theorem extra_mem_keys_members_iff : "extra" ∈ r.members.map (·.1) ↔ r.extra.isSome = true := by
  rw [keys_members]
  split <;> simp [*]

theorem map_text_inj {k l : Option VariantKind} : k.map (·.text) = l.map (·.text) ↔ k = l := by
  have hinj : Function.Injective VariantKind.text := by
    intro k l h
    cases k <;> cases l <;> first | rfl | exact absurd h (by decide)
  exact (Option.map_injective hinj).eq_iff

theorem forall₂_members_iff :
    List.Forall₂ (fun member other => member.2.Same other.2) r.members s.members ↔ r.SameAs s := by
  have hextra : List.Forall₂ (fun member other => member.2.Same other.2)
      (r.extra.map fun extra => ("extra", Json.obj extra)).toList
      (s.extra.map fun extra => ("extra", Json.obj extra)).toList ↔
        Option.Rel (fun members others => (Json.obj members).Same (.obj others))
          r.extra s.extra := by
    cases r.extra <;> cases s.extra <;> simp
  rw [members, members]
  simp only [List.cons_append, List.nil_append, List.forall₂_cons, hextra, Json.same_str_iff,
    Json.same_optionalText_iff, map_text_inj]
  constructor
  · rintro ⟨hlevel, hoperation, hproject, hkind, htype, hmessage, hextra⟩
    exact ⟨hlevel, hoperation, hproject, hkind, htype, hmessage, hextra⟩
  · intro h
    exact ⟨h.level, h.operation, h.project, h.variantKind, h.buildType, h.message, h.extra⟩

theorem toJson_same_iff : r.toJson.Same s.toJson ↔ r.SameAs s := by
  rw [toJson_eq, toJson_eq]
  by_cases h : r.extra.isSome = s.extra.isSome
  · have hkeys : r.members.map (·.1) = s.members.map (·.1) := by
      rw [keys_members, keys_members, h]
    rw [Json.same_obj_iff_forall₂ hkeys (nodup_keys_members r), forall₂_members_iff]
  · refine iff_of_false (fun hsame => h ?_) fun hsame => h ?_
    · rw [Bool.eq_iff_iff, ← extra_mem_keys_members_iff, ← extra_mem_keys_members_iff]
      exact hsame.mem_keys_iff
    · have hextra := hsame.extra
      generalize r.extra = extra, s.extra = others at hextra
      cases hextra <;> rfl

theorem line_eq_iff : r.toJson.line = s.toJson.line ↔ r.SameAs s :=
  Json.line_eq_iff.trans toJson_same_iff

theorem encodes_line (r : LogRecord) : Encodes r.toJson.line.toList r :=
  ⟨r.toJson.canonical, fun _ => Json.mem_documents_iff_of_line,
    r.toJson.canonical_same⟩

end LogRecord

namespace RunLog

section Lines

variable {lines : List (List Char)}

private theorem intercalate_append (h : lines ≠ []) :
    ['\n'].intercalate lines ++ ['\n'] = lines.flatMap (· ++ ['\n']) := by
  induction lines with
  | nil => exact absurd rfl h
  | cons line rest ih =>
    cases rest with
    | nil => simp
    | cons next rest =>
      rw [List.intercalate_cons_cons, List.flatMap_cons, ← ih (List.cons_ne_nil next rest)]
      simp only [List.append_assoc]

private theorem splitOn_flatMap (h : ∀ line ∈ lines, '\n' ∉ line) :
    (lines.flatMap (· ++ ['\n'])).splitOn '\n' = lines ++ [[]] := by
  induction lines with
  | nil => rfl
  | cons line rest ih =>
    obtain ⟨hline, hrest⟩ := List.forall_mem_cons.mp h
    rw [List.flatMap_cons, List.append_assoc, List.singleton_append,
      List.splitOn_append_cons_self_of_not_mem hline, ih hrest, List.cons_append]

private theorem count_flatMap (h : ∀ line ∈ lines, '\n' ∉ line) :
    (lines.flatMap (· ++ ['\n'])).count '\n' = lines.length := by
  induction lines with
  | nil => rfl
  | cons line rest ih =>
    obtain ⟨hline, hrest⟩ := List.forall_mem_cons.mp h
    rw [List.flatMap_cons, List.count_append, List.count_append, List.count_eq_zero.mpr hline,
      ih hrest, List.length_cons, List.count_singleton_self]
    omega

end Lines

variable {log other : RunLog} {line : List Char}

def lines (log : RunLog) : List (List Char) := log.records.map fun r => r.toJson.line.toList

theorem isPrintable_of_mem_lines (h : line ∈ log.lines) : ∀ c ∈ line, Json.IsPrintable c := by
  obtain ⟨r, -, rfl⟩ := List.mem_map.mp h
  exact Json.isPrintable_of_mem_line r.toJson

theorem newline_not_mem_lines : ∀ line ∈ log.lines, '\n' ∉ line := by
  intro line hline hmem
  exact absurd (isPrintable_of_mem_lines hline _ hmem) (by decide)

theorem toList_text (h : log.records ≠ []) : log.text.toList = log.lines.flatMap (· ++ ['\n']) := by
  have hlines : log.lines ≠ [] := by simpa [lines] using h
  rw [← intercalate_append hlines, text, String.toList_append, String.toList_intercalate,
    List.map_map]
  rfl

theorem splitOn_text (h : log.records ≠ []) : log.text.toList.splitOn '\n' = log.lines ++ [[]] := by
  rw [toList_text h, splitOn_flatMap newline_not_mem_lines]

theorem lines_eq_iff :
    other.lines = log.lines ↔ List.Forall₂ LogRecord.SameAs other.records log.records := by
  rw [lines, lines, ← List.forall₂_eq_eq_eq, List.forall₂_map_left_iff, List.forall₂_map_right_iff]
  simp only [String.toList_inj, LogRecord.line_eq_iff]

/-- The text of the log without records is an empty line, which is the line of no record. -/
theorem text_ne_of_nil (h : log.records ≠ []) (hother : other.records = []) :
    other.text ≠ log.text := by
  intro htext
  have hempty : other.text = "\n" := by
    rw [text, hother]
    rfl
  have hsplit := splitOn_text h
  rw [← htext, hempty] at hsplit
  have hlines : [[]] = log.lines := List.append_cancel_right hsplit
  have hblank : [] ∈ log.lines := hlines ▸ List.mem_singleton_self []
  obtain ⟨r, -, hline⟩ := List.mem_map.mp hblank
  exact Json.line_ne_nil r.toJson hline

theorem text_eq_iff (h : log.records ≠ []) :
    other.text = log.text ↔ List.Forall₂ LogRecord.SameAs other.records log.records := by
  by_cases hother : other.records = []
  · refine iff_of_false (text_ne_of_nil h hother) fun hsame => ?_
    rw [hother, List.forall₂_nil_left_iff] at hsame
    exact h hsame
  · rw [← lines_eq_iff, ← String.toList_inj]
    constructor
    · intro htext
      have hsplit := splitOn_text hother
      rw [htext, splitOn_text h] at hsplit
      exact (List.append_cancel_right hsplit).symm
    · intro hlines
      rw [toList_text h, toList_text hother, hlines]

/-- The text of a log is printable ASCII but for its line ends, of which there are as many as
records. The lines that the line ends close encode the records one by one. Another log has this text
exactly if its records are equal to those of this log as mappings. -/
theorem text_encodes_records (log : RunLog) (h : log.records ≠ []) :
    (∀ c ∈ log.text.toList, c = '\n' ∨ Json.IsPrintable c) ∧
      log.text.toList.count '\n' = log.records.length ∧
      (∃ lines, log.text.toList.splitOn '\n' = lines ++ [[]] ∧
        List.Forall₂ LogRecord.Encodes lines log.records) ∧
      ∀ other : RunLog, other.text = log.text ↔
        List.Forall₂ LogRecord.SameAs other.records log.records := by
  refine ⟨?_, ?_, ⟨log.lines, splitOn_text h, ?_⟩, fun other => text_eq_iff h⟩
  · intro c hc
    rw [toList_text h] at hc
    obtain ⟨line, hline, hc⟩ := List.mem_flatMap.mp hc
    rcases List.mem_append.mp hc with hc | hc
    · exact Or.inr (isPrintable_of_mem_lines hline c hc)
    · exact Or.inl (List.mem_singleton.mp hc)
  · rw [toList_text h, count_flatMap newline_not_mem_lines, lines, List.length_map]
  · rw [lines, List.forall₂_map_left_iff, List.forall₂_same]
    exact fun r _ => r.encodes_line

def escapedLog : RunLog :=
  ⟨[{ level := "error", operation := "project_failed", project := some ":app",
      message := "a \x22quoted\x22 \\ name\nand \u2028 \x7f é 😀",
      extra := some [("cause", .arr [.null, .int (-3), .obj [("b", .str ""), ("a", .obj [])]])] },
    { operation := "analyzed", variantKind := some .library, message := "" }]⟩

theorem text_encodes_records_escaped :
    escapedLog.records ≠ [] ∧
      escapedLog.text =
        "\x7b\x22build_type\x22: null, " ++
          "\x22extra\x22: \x7b\x22cause\x22: " ++
          "[null, -3, \x7b\x22a\x22: \x7b\x7d, \x22b\x22: \x22\x22\x7d]\x7d, " ++
          "\x22level\x22: \x22error\x22, " ++
          "\x22message\x22: \x22a \\\x22quoted\\\x22 \\\\ name" ++
          "\\nand \\u2028 \\u007f \\u00e9 \\ud83d\\ude00\x22, " ++
          "\x22operation\x22: \x22project_failed\x22, " ++
          "\x22project\x22: \x22:app\x22, " ++
          "\x22variant_kind\x22: null\x7d\n" ++
          "\x7b\x22build_type\x22: null, \x22level\x22: \x22info\x22, " ++
          "\x22message\x22: \x22\x22, \x22operation\x22: \x22analyzed\x22, " ++
          "\x22project\x22: null, " ++
          "\x22variant_kind\x22: \x22library\x22\x7d\n" ∧
      escapedLog.text.toList.count '\n' = 2 ∧
      (∃ lines, escapedLog.text.toList.splitOn '\n' = lines ++ [[]] ∧
        List.Forall₂ LogRecord.Encodes lines escapedLog.records) ∧
      ∀ other : RunLog, other.text = escapedLog.text ↔
        List.Forall₂ LogRecord.SameAs other.records escapedLog.records := by
  have hrecords : escapedLog.records ≠ [] := List.cons_ne_nil _ _
  obtain ⟨-, hcount, hlines, hother⟩ := text_encodes_records escapedLog hrecords
  exact ⟨hrecords, by decide +kernel, hcount, hlines, hother⟩

end RunLog

end BuildVariants
