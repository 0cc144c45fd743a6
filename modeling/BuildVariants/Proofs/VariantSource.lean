import BuildVariants.Proofs.FiniteMap
import BuildVariants.Proofs.Stage
import BuildVariants.VariantSource

/-!
Sources that are filled by recording variants. Such a source has every variant under its own name,
so the variants that it lists for a project have different names. Its contents are what was recorded
under each project and name, and two sources with the same contents may list them in different
orders.
-/

set_option autoImplicit false
set_option relaxedAutoImplicit false

namespace BuildVariants

namespace Records

variable {α : Type} {records : Records α}

def Named (records : Records α) : Prop :=
  ∀ project name recorded, (records.ofProject project).get? name = some recorded →
    recorded.1.name = name

theorem get?_record (records : Records α) (project : String) (variant : MatchedVariant) (data : α)
    (other name : String) :
    ((records.record project variant data).ofProject other).get? name =
      if other = project ∧ name = variant.name then some (variant, data)
      else (records.ofProject other).get? name := by
  rw [record, ofProject, OrderedMap.get?_put]
  by_cases hproject : other = project
  · rw [if_pos hproject, Option.getD_some, OrderedMap.get?_put, hproject]
    simp
  · rw [if_neg hproject, if_neg fun hsame => hproject hsame.1, ofProject]

theorem named_empty : Named (.empty : Records α) :=
  fun _ _ _ h => nomatch h

theorem Named.record (h : records.Named) (project : String) (variant : MatchedVariant) (data : α) :
    (records.record project variant data).Named := by
  intro other name recorded hrecorded
  rw [get?_record] at hrecorded
  split at hrecorded
  · next hsame =>
    cases hrecorded
    exact hsame.2.symm
  · exact h other name recorded hrecorded

theorem Named.name_of_mem_entries (h : records.Named) {project : String}
    {entry : String × MatchedVariant × α} (hentry : entry ∈ (records.ofProject project).entries) :
    entry.2.1.name = entry.1 :=
  h project entry.1 entry.2 (OrderedMap.get?_eq_some_iff.mpr hentry)

theorem matched_eq (records : Records α) (project : String) :
    records.matched project = (records.ofProject project).entries.map (·.2.1) := by
  rw [matched, OrderedMap.values, List.map_map]
  rfl

theorem Named.names_matched (h : records.Named) (project : String) :
    (records.matched project).map (·.name) = (records.ofProject project).keys := by
  rw [matched_eq, List.map_map]
  exact List.map_congr_left fun entry hentry => h.name_of_mem_entries hentry

theorem Named.nodup_names_matched (h : records.Named) (project : String) :
    ((records.matched project).map (·.name)).Nodup := by
  rw [h.names_matched]
  exact (records.ofProject project).distinct

theorem data_of_mem_entries (kind : VariantKind) {project : String}
    {entry : String × MatchedVariant × α} (hentry : entry ∈ (records.ofProject project).entries) :
    records.data kind project entry.1 = .ok entry.2.2 := by
  rw [data, OrderedMap.get?_eq_some_iff.mpr hentry]

end Records

namespace RecordedSource

inductive Built : RecordedSource → Prop
  | empty : Built .empty
  | addLibrary {s result : RecordedSource} {project : String} {variant : MatchedVariant}
      {data : LibraryVariant} (built : Built s)
      (added : s.addLibrary project variant data = .ok result) : Built result
  | addTest {s result : RecordedSource} {project : String} {variant : MatchedVariant}
      {data : UnitTestVariant} (built : Built s)
      (added : s.addTest project variant data = .ok result) : Built result

/-- Two sources have the same variants with the same data under each project and name. -/
structure SameRecords (s other : RecordedSource) : Prop where
  libraries : ∀ project name,
    (s.libraries.ofProject project).get? name = (other.libraries.ofProject project).get? name
  tests : ∀ project name,
    (s.tests.ofProject project).get? name = (other.tests.ofProject project).get? name

variable {s result : RecordedSource} {project : String} {variant : MatchedVariant}

theorem addLibrary_eq_ok_iff {data : LibraryVariant} :
    s.addLibrary project variant data = .ok result ↔ checkVariant variant = .ok () ∧
      result = { s with libraries := s.libraries.record project variant data } := by
  rw [addLibrary]
  cases checkVariant variant with
  | error fault => simp [bind, Except.bind]
  | ok checked => simp [bind, Except.bind, pure, Except.pure, eq_comm]

theorem addTest_eq_ok_iff {data : UnitTestVariant} :
    s.addTest project variant data = .ok result ↔ checkVariant variant = .ok () ∧
      result = { s with tests := s.tests.record project variant data } := by
  rw [addTest]
  cases checkVariant variant with
  | error fault => simp [bind, Except.bind]
  | ok checked => simp [bind, Except.bind, pure, Except.pure, eq_comm]

theorem Built.recordLibrary (h : s.Built) (project : String) (variant : MatchedVariant)
    (data : LibraryVariant) (hvalid : checkVariant variant = .ok ()) :
    Built { s with libraries := s.libraries.record project variant data } :=
  h.addLibrary (addLibrary_eq_ok_iff.mpr ⟨hvalid, rfl⟩)

theorem Built.recordTest (h : s.Built) (project : String) (variant : MatchedVariant)
    (data : UnitTestVariant) (hvalid : checkVariant variant = .ok ()) :
    Built { s with tests := s.tests.record project variant data } :=
  h.addTest (addTest_eq_ok_iff.mpr ⟨hvalid, rfl⟩)

theorem Built.named (h : s.Built) : s.libraries.Named ∧ s.tests.Named := by
  induction h with
  | empty => exact ⟨Records.named_empty, Records.named_empty⟩
  | addLibrary built added ih =>
    obtain ⟨-, rfl⟩ := addLibrary_eq_ok_iff.mp added
    exact ⟨ih.1.record _ _ _, ih.2⟩
  | addTest built added ih =>
    obtain ⟨-, rfl⟩ := addTest_eq_ok_iff.mp added
    exact ⟨ih.1, ih.2.record _ _ _⟩

inductive Addition
  | library (project : String) (variant : MatchedVariant) (data : LibraryVariant)
  | test (project : String) (variant : MatchedVariant) (data : UnitTestVariant)

def add (s : RecordedSource) : Addition → Except Fault RecordedSource
  | .library project variant data => s.addLibrary project variant data
  | .test project variant data => s.addTest project variant data

/-- The source after a list of calls, of which those that fail leave it as it is. -/
def addAll (s : RecordedSource) (additions : List Addition) : RecordedSource :=
  additions.foldl (fun s addition => (s.add addition).toOption.getD s) s

theorem Built.add (h : s.Built) {addition : Addition} (hadd : s.add addition = .ok result) :
    result.Built := by
  cases addition with
  | library project variant data => exact h.addLibrary hadd
  | test project variant data => exact h.addTest hadd

theorem Built.addAll (h : s.Built) (additions : List Addition) : (s.addAll additions).Built := by
  induction additions generalizing s with
  | nil => exact h
  | cons addition rest ih =>
    have hnext : ((s.add addition).toOption.getD s).Built := by
      cases hadd : s.add addition with
      | error fault => exact h
      | ok result => exact h.add hadd
    exact ih hnext

def freeFirst : RecordedSource where
  libraries := ((Records.record .empty
    ":core" ⟨"freeDebug", "debug", []⟩ { name := "core-free" }).record
    ":core" ⟨"paidDebug", "debug", []⟩ { name := "core-paid" }).record
    ":app" ⟨"debug", "debug", []⟩ { name := "app", deps := [.project ":core" ""] }
  tests := .empty

theorem built_freeFirst : freeFirst.Built :=
  ((Built.empty.recordLibrary
    ":core" ⟨"freeDebug", "debug", []⟩ { name := "core-free" } rfl).recordLibrary
    ":core" ⟨"paidDebug", "debug", []⟩ { name := "core-paid" } rfl).recordLibrary
    ":app" ⟨"debug", "debug", []⟩ { name := "app", deps := [.project ":core" ""] } rfl

end RecordedSource

end BuildVariants
