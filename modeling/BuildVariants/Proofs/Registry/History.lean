import BuildVariants.Proofs.History
import BuildVariants.Proofs.Registry
import Mathlib.Data.List.DropRight

/-!
What a registry holds after a history of calls. Each channel has, for every project, what was last
registered there since the registry was last cleared. One call says which of these registrations
stand, and the induction is on the last call of a history. The projects are listed in the order of
their first registration, and a suffix is only resolved to if the project has a target with it.
-/

set_option autoImplicit false
set_option relaxedAutoImplicit false

namespace BuildVariants

/-- Names are listed once each, in the order in which they are first mentioned. -/
structure ListsByFirstMention (names mentions : List String) : Prop where
  nodup : names.Nodup
  mem_iff : ∀ name, name ∈ names ↔ name ∈ mentions
  ordered : names.Pairwise fun earlier later => mentions.idxOf earlier < mentions.idxOf later

namespace ListsByFirstMention

variable {names mentions : List String} {name : String}

theorem mention_again (h : ListsByFirstMention names mentions) (hname : name ∈ names) :
    ListsByFirstMention names (mentions ++ [name]) where
  nodup := h.nodup
  mem_iff := by
    intro other
    rw [List.mem_append, List.mem_singleton, ← h.mem_iff]
    constructor
    · exact Or.inl
    · rintro (hother | rfl)
      · exact hother
      · exact hname
  ordered := by
    refine h.ordered.imp_of_mem fun hearlier hlater hlt => ?_
    rwa [List.idxOf_append_of_mem ((h.mem_iff _).mp hearlier),
      List.idxOf_append_of_mem ((h.mem_iff _).mp hlater)]

theorem mention_new (h : ListsByFirstMention names mentions) (hname : name ∉ names) :
    ListsByFirstMention (names ++ [name]) (mentions ++ [name]) where
  nodup := List.nodup_append.mpr ⟨h.nodup, List.nodup_singleton name, by
    rintro other hother _ hlast rfl
    exact hname (List.mem_singleton.mp hlast ▸ hother)⟩
  mem_iff := by
    intro other
    rw [List.mem_append, List.mem_append, h.mem_iff]
  ordered := by
    have hold : ∀ other ∈ names, (mentions ++ [name]).idxOf other = mentions.idxOf other :=
      fun other hother => List.idxOf_append_of_mem ((h.mem_iff other).mp hother)
    have hnew : (mentions ++ [name]).idxOf name = mentions.length := by
      rw [List.idxOf_append_of_notMem (mt (h.mem_iff name).mpr hname), List.idxOf_cons_self]
      omega
    refine List.pairwise_append.mpr ⟨?_, List.pairwise_singleton _ _, ?_⟩
    · refine h.ordered.imp_of_mem fun hearlier hlater hlt => ?_
      rwa [hold _ hearlier, hold _ hlater]
    · intro earlier hearlier later hlater
      rw [List.mem_singleton.mp hlater, hnew, hold earlier hearlier]
      exact List.idxOf_lt_length_iff.mpr ((h.mem_iff earlier).mp hearlier)

end ListsByFirstMention

theorem Folding.contains_of_resolve? {α : Type} {folding : Folding α} {variant suffix : String}
    {buildType : Option String} (h : folding.resolve? variant buildType = some suffix) :
    folding.targets.contains suffix = true := by
  unfold resolve? at h
  split at h
  · next assigned hassigned =>
    cases h
    exact contains_of_get?_assignment hassigned
  · split at h
    · next hfull =>
      cases h
      rw [isFull, Bool.and_eq_true] at hfull
      exact hfull.2
    · obtain ⟨label, -, hlabel⟩ := Option.bind_eq_some_iff.mp h
      split at hlabel
      · next hkept =>
        cases hlabel
        rw [Bool.and_eq_true] at hkept
        exact hkept.2
      · cases hlabel

namespace Registry

/-- A call on a registry: a registration on one of its two channels, or its clearing. -/
inductive Call
  | registerLibrary (path : String) (folding : Folding LibraryVariant)
  | registerTests (path : String) (folding : Folding UnitTestVariant)
  | clear

namespace Call

def isClear : Call → Bool
  | .clear => true
  | _ => false

def isOnTests : Call → Bool
  | .registerTests _ _ => true
  | _ => false

def libraryPath? : Call → Option String
  | .registerLibrary path _ => some path
  | _ => none

def EndsLibrary (path : String) (call : Call) : Prop :=
  call = .clear ∨ ∃ folding, call = .registerLibrary path folding

def EndsTests (path : String) (call : Call) : Prop :=
  call = .clear ∨ ∃ folding, call = .registerTests path folding

end Call

def call (r : Registry) : Call → Registry
  | .registerLibrary path folding => r.registerLibrary path folding
  | .registerTests path folding => r.registerTests path folding
  | .clear => .empty

def afterCalls (calls : List Call) : Registry := calls.foldl call .empty

/-- The calls since the registry was last cleared. -/
def sinceClear (calls : List Call) : List Call := calls.rtakeWhile fun call => !call.isClear

structure SameLibraries (r other : Registry) : Prop where
  library? : r.library? = other.library?
  hasLibrary : r.hasLibrary = other.hasLibrary
  projectPaths : r.projectPaths = other.projectPaths
  resolveSuffix : r.resolveSuffix = other.resolveSuffix

/-- What a registry answers after a history of calls. Each channel has the last registrations since
the last clearing, and the calls on the channel of the tests do not affect the libraries. Projects
with a library folding are listed in the order of their first registration since the last clearing,
and a suffix that is resolved to is that of a target of such a project. -/
structure Reflects (r : Registry) (calls : List Call) : Prop where
  library?_iff : ∀ path folding, r.library? path = some folding ↔
    Stands calls (· = .registerLibrary path folding) (Call.EndsLibrary path)
  tests?_iff : ∀ path folding, r.tests? path = some folding ↔
    Stands calls (· = .registerTests path folding) (Call.EndsTests path)
  without_tests : r.SameLibraries (afterCalls (calls.filter fun call => !call.isOnTests))
  hasLibrary_iff : ∀ path, r.hasLibrary path = true ↔ ∃ folding, r.library? path = some folding
  mem_projectPaths_iff : ∀ path, path ∈ r.projectPaths ↔ ∃ folding, r.library? path = some folding
  projectPaths_ordered :
    ListsByFirstMention r.projectPaths ((sinceClear calls).filterMap Call.libraryPath?)
  resolves_to_target : ∀ path variant buildType suffix,
    r.resolveSuffix path variant buildType = some suffix →
      ∃ folding, r.library? path = some folding ∧ suffix ∈ folding.targets.keys

section History

variable {r : Registry} {calls : List Call} {call : Call} {path : String}

theorem afterCalls_append (calls : List Call) (call : Call) :
    afterCalls (calls ++ [call]) = (afterCalls calls).call call := by
  simp only [afterCalls, List.foldl_append, List.foldl_cons, List.foldl_nil]

/-- A folding stands after a call exactly if the call registers it, or if it stood before and the
call does not end it. -/
theorem library?_call_iff {folding : Folding LibraryVariant} :
    (r.call call).library? path = some folding ↔
      call = .registerLibrary path folding ∨
        (¬ call.EndsLibrary path ∧ r.library? path = some folding) := by
  cases call with
  | registerLibrary other registered =>
    rw [Registry.call, library?_registerLibrary]
    by_cases hpath : path = other
    · simp [hpath, Call.EndsLibrary, eq_comm]
    · simp [hpath, Call.EndsLibrary, Ne.symm hpath]
  | registerTests other registered => simp [Registry.call, Call.EndsLibrary]
  | clear => simp [Registry.call, Call.EndsLibrary]

theorem tests?_call_iff {folding : Folding UnitTestVariant} :
    (r.call call).tests? path = some folding ↔
      call = .registerTests path folding ∨
        (¬ call.EndsTests path ∧ r.tests? path = some folding) := by
  cases call with
  | registerLibrary other registered => simp [Registry.call, Call.EndsTests]
  | registerTests other registered =>
    rw [Registry.call, tests?_registerTests]
    by_cases hpath : path = other
    · simp [hpath, Call.EndsTests, eq_comm]
    · simp [hpath, Call.EndsTests, Ne.symm hpath]
  | clear => simp [Registry.call, Call.EndsTests]

theorem sinceClear_append (h : call.isClear = false) :
    sinceClear (calls ++ [call]) = sinceClear calls ++ [call] :=
  List.rtakeWhile_concat_pos _ _ _ (by simp [h])

theorem projectPaths_call (h : ListsByFirstMention r.projectPaths
      ((sinceClear calls).filterMap Call.libraryPath?)) :
    ListsByFirstMention (r.call call).projectPaths
      ((sinceClear (calls ++ [call])).filterMap Call.libraryPath?) := by
  cases call with
  | registerLibrary path folding =>
    rw [sinceClear_append rfl, List.filterMap_append]
    have hkeys : (r.registerLibrary path folding).projectPaths =
        if path ∈ r.projectPaths then r.projectPaths else r.projectPaths ++ [path] :=
      OrderedMap.keys_put r.libraries path folding
    rw [Registry.call, hkeys]
    split
    · next hpath => exact h.mention_again hpath
    · next hpath => exact h.mention_new hpath
  | registerTests path folding =>
    have hmentions : [Call.registerTests path folding].filterMap Call.libraryPath? = [] := rfl
    rw [sinceClear_append rfl, List.filterMap_append, hmentions, List.append_nil]
    exact h
  | clear =>
    have hsince : sinceClear (calls ++ [.clear]) = [] :=
      List.rtakeWhile_concat_neg _ _ _ Bool.false_ne_true
    rw [hsince]
    exact ⟨List.nodup_nil, fun _ => Iff.rfl, List.Pairwise.nil⟩

theorem projectPaths_afterCalls (calls : List Call) :
    ListsByFirstMention (afterCalls calls).projectPaths
      ((sinceClear calls).filterMap Call.libraryPath?) := by
  induction calls using List.reverseRecOn with
  | nil => exact ⟨List.nodup_nil, fun _ => Iff.rfl, List.Pairwise.nil⟩
  | append_singleton calls call ih =>
    rw [afterCalls_append]
    exact projectPaths_call ih

theorem libraries_call_congr {other : Registry} (h : r.libraries = other.libraries) :
    (r.call call).libraries = (other.call call).libraries := by
  cases call with
  | registerLibrary path folding =>
    rw [Registry.call, Registry.call, registerLibrary, registerLibrary, h]
  | registerTests path folding => exact h
  | clear => rfl

theorem libraries_call_of_isOnTests (h : call.isOnTests = true) :
    (r.call call).libraries = r.libraries := by
  cases call with
  | registerTests path folding => rfl
  | registerLibrary path folding => cases h
  | clear => cases h

theorem libraries_afterCalls (calls : List Call) :
    (afterCalls calls).libraries =
      (afterCalls (calls.filter fun call => !call.isOnTests)).libraries := by
  induction calls using List.reverseRecOn with
  | nil => rfl
  | append_singleton calls call ih =>
    cases hcall : call.isOnTests with
    | true =>
      rw [List.filter_append, List.filter_cons_of_neg (by simp [hcall]), List.filter_nil,
        List.append_nil, ← ih, afterCalls_append, libraries_call_of_isOnTests hcall]
    | false =>
      rw [List.filter_append, List.filter_cons_of_pos (by simp [hcall]), List.filter_nil,
        afterCalls_append, afterCalls_append]
      exact libraries_call_congr ih

theorem sameLibraries_of_libraries_eq {other : Registry} (h : r.libraries = other.libraries) :
    r.SameLibraries other := by
  have hlibrary : r.library? = other.library? := by
    funext path
    rw [library?, library?, h]
  refine ⟨hlibrary, ?_, ?_, ?_⟩
  · funext path
    rw [hasLibrary, hasLibrary, h]
  · rw [projectPaths, projectPaths, h]
  · funext path variant buildType
    rw [resolveSuffix, resolveSuffix, hlibrary]

end History

/-- After any history of calls, a registry answers from the last registrations since it was last
cleared, on each channel by itself. -/
theorem afterCalls_reflects (calls : List Call) : (afterCalls calls).Reflects calls where
  library?_iff := by
    intro path folding
    refine foldl_iff_stands (fun r : Registry => r.library? path = some folding) ?_ ?_ calls
    · simp
    · exact fun r call => library?_call_iff
  tests?_iff := by
    intro path folding
    refine foldl_iff_stands (fun r : Registry => r.tests? path = some folding) ?_ ?_ calls
    · simp
    · exact fun r call => tests?_call_iff
  without_tests := sameLibraries_of_libraries_eq (libraries_afterCalls calls)
  hasLibrary_iff := fun _ => OrderedMap.contains_iff_mem_keys.trans OrderedMap.mem_keys_iff
  mem_projectPaths_iff := fun _ => OrderedMap.mem_keys_iff
  projectPaths_ordered := projectPaths_afterCalls calls
  resolves_to_target := by
    intro path variant buildType suffix hsuffix
    obtain ⟨folding, hfolding, hresolve⟩ := Option.bind_eq_some_iff.mp hsuffix
    exact ⟨folding, hfolding,
      SortedMap.contains_iff_mem_keys.mp (Folding.contains_of_resolve? hresolve)⟩

end Registry

end BuildVariants
