import LayerLint.Source.File
import LayerLint.Proofs.Path.Segments
import Mathlib.Data.List.TakeWhile

/-!
# Names of source files

A source file is named by its base name and an ending that says whether it is a test, and both are known from the name
(`name_eq`, `baseNameOf_append_ending`); what any name says is read of it (`names_baseNameOf`). The name is the last
segment of the path (`Path.getLast?_segments`). The path in normal form (`Path.normalized`) is made of its directory
and its name, and both are known from that path (`Path.entry_injective`).
-/

namespace LayerLint

/-! ## Ends of texts -/

namespace Text

theorem endsWith_iff {s tail : String} : endsWith s tail = true ↔ tail.toList <:+ s.toList :=
  List.isSuffixOf_iff_suffix

@[simp] theorem dropEnd_append (s tail : String) : dropEnd (s ++ tail) tail.length = s := by
  apply String.toList_inj.mp
  have hlength : (s.toList ++ tail.toList).length - tail.length = s.toList.length := by
    rw [List.length_append, ← String.length_toList (s := tail), Nat.add_sub_cancel]
  rw [dropEnd, String.toList_ofList, String.toList_append, hlength]
  exact List.take_left

/-- A text is its end and what stands before it. -/
theorem dropEnd_append_of_endsWith {s tail : String} (h : endsWith s tail = true) :
    dropEnd s tail.length ++ tail = s := by
  obtain ⟨lead, hlead⟩ := endsWith_iff.mp h
  have hs : s = String.ofList lead ++ tail := String.toList_inj.mp (by simp [← hlead])
  rw [hs, dropEnd_append]

theorem endsWith_append (s tail : String) : endsWith (s ++ tail) tail = true :=
  endsWith_iff.mpr ⟨s.toList, by simp⟩

theorem endsWith_append_append {s mid tail : String} :
    endsWith (s ++ tail) (mid ++ tail) = endsWith s mid := by
  rw [Bool.eq_iff_iff, endsWith_iff, endsWith_iff, String.toList_append, String.toList_append]
  constructor
  · rintro ⟨lead, hlead⟩
    rw [← List.append_assoc] at hlead
    exact ⟨lead, List.append_cancel_right hlead⟩
  · rintro ⟨lead, hlead⟩
    exact ⟨lead, by rw [← List.append_assoc, hlead]⟩

end Text

/-! ## Base names and endings -/

namespace Source

/-- The ending of a file's name, for tests and for other files. -/
def ending (isTest : Bool) : String := if isTest then "_test.go" else ".go"

theorem ending_true : ending true = testMark ++ fileSuffix := by decide

theorem ending_false : ending false = fileSuffix := rfl

variable {name : String}

theorem isTestName_append_suffix (stem : String) :
    isTestName (stem ++ fileSuffix) = Text.endsWith stem testMark :=
  Text.endsWith_append_append

theorem baseNameOf_append_suffix (stem : String) : baseNameOf (stem ++ fileSuffix) =
    if Text.endsWith stem testMark then Text.dropEnd stem testMark.length else stem := by
  unfold baseNameOf
  dsimp only
  rw [if_pos (Text.endsWith_append stem fileSuffix), Text.dropEnd_append]

/-- **A name is its base name and its ending.** -/
theorem name_eq (h : Text.endsWith name fileSuffix = true) : name = baseNameOf name ++ ending (isTestName name) := by
  obtain ⟨stem, rfl⟩ : ∃ stem, name = stem ++ fileSuffix := ⟨_, (Text.dropEnd_append_of_endsWith h).symm⟩
  rw [isTestName_append_suffix, baseNameOf_append_suffix]
  by_cases htest : Text.endsWith stem testMark = true
  · rw [if_pos htest, htest, ending_true, ← String.append_assoc, Text.dropEnd_append_of_endsWith htest]
  · rw [if_neg htest, Bool.eq_false_iff.mpr htest, ending_false]

theorem endsWith_append_ending (base : String) (isTest : Bool) :
    Text.endsWith (base ++ ending isTest) fileSuffix = true := by
  cases isTest with
  | false => exact Text.endsWith_append base fileSuffix
  | true =>
    rw [ending_true, ← String.append_assoc]
    exact Text.endsWith_append _ fileSuffix

/-- A name with the ending of a test is that of a test, whatever stands before the ending. -/
theorem isTestName_append_ending (base : String) : isTestName (base ++ ending true) = true := by
  rw [ending_true, ← String.append_assoc, isTestName_append_suffix]
  exact Text.endsWith_append base testMark

/-- What stands before the ending is the base name. -/
theorem baseNameOf_append_ending {base : String} {isTest : Bool} (h : isTestName (base ++ ending isTest) = isTest) :
    baseNameOf (base ++ ending isTest) = base := by
  have hname := name_eq (endsWith_append_ending base isTest)
  rw [h] at hname
  exact (String.append_left_inj _).mp hname.symm

/-- The name of a file gives its base name and says whether it is a test; a name without the ending is its own base
name. -/
inductive Names : String → String → Bool → Prop
  | test (base : String) : Names (base ++ "_test.go") base true
  | source {base : String} (h : Text.endsWith base "_test" = false) : Names (base ++ ".go") base false
  | other {name : String} (h : Text.endsWith name ".go" = false) : Names name name false

/-- **What is read of a name is what it gives.** -/
theorem names_baseNameOf (name : String) : Names name (baseNameOf name) (isTestName name) := by
  by_cases hsuffix : Text.endsWith name fileSuffix = true
  · have hnames : Names (baseNameOf name ++ ending (isTestName name)) (baseNameOf name) (isTestName name) := by
      have hname := name_eq hsuffix
      cases htest : isTestName name with
      | true => exact .test _
      | false =>
        rw [htest, ending_false] at hname
        exact .source (by rw [← testMark, ← isTestName_append_suffix, ← hname, htest])
    rwa [← name_eq hsuffix] at hnames
  · have hbase : baseNameOf name = name := if_neg hsuffix
    have htest : isTestName name = false := by
      rw [Bool.eq_false_iff]
      intro h
      obtain ⟨lead, hlead⟩ := Text.endsWith_iff.mp h
      refine hsuffix (Text.endsWith_iff.mpr ⟨lead ++ testMark.toList, ?_⟩)
      rw [← hlead, String.toList_append, List.append_assoc]
    rw [hbase, htest]
    exact .other (Bool.eq_false_iff.mpr hsuffix)

end Source

/-! ## Paths of files -/

namespace Path

/-- The path of a file in normal form: its directory, where every backslash is written as a slash, and its name. -/
def normalized (path : String) : String := entry (directoryOf path) (baseName path)

/-- The name of a file is the last segment of its path. -/
theorem getLast?_segments (path : String) : (segments path).getLast? = some (baseName path) := by
  have hchars : ∀ s : List Char, (Text.splitAt '/' s).getLast? = some (splitLast s).2 := by
    intro s
    induction s using @Text.piecesInduction '/' with
    | last s hs =>
      have hall : s.reverse.takeWhile (· != '/') = s.reverse := by
        rw [List.takeWhile_eq_self_iff]
        exact fun c hc => bne_iff_ne.mpr (ne_of_mem_of_not_mem (List.mem_reverse.mp hc) hs)
      rw [Text.splitAt_of_not_mem hs, splitLast, hall, List.reverse_reverse]
      rfl
    | more a b ha ih =>
      have hstop : (a ++ '/' :: b).reverse.takeWhile (· != '/') = b.reverse.takeWhile (· != '/') := by
        rw [List.reverse_append, List.reverse_cons, List.append_assoc, List.takeWhile_append]
        split
        · rename_i hlength
          rw [(List.takeWhile_prefix _).eq_of_length hlength]
          simp
        · rfl
      rw [Text.splitAt_append_sep, List.getLast?_append_of_ne_nil _ (Text.splitAt_ne_nil '/' b), ih, splitLast,
        splitLast, hstop]
  rw [segments, List.getLast?_map, hchars, baseName]
  rfl

theorem not_mem_baseName (path : String) : '/' ∉ (baseName path).toList := by
  intro h
  rw [baseName, String.toList_ofList, splitLast, List.mem_reverse] at h
  simpa using List.mem_takeWhile_imp h

/-- **A path in normal form tells the directory and the name.** -/
theorem entry_injective {directory directory' name name' : String} (hname : '/' ∉ name.toList)
    (hname' : '/' ∉ name'.toList) (h : entry directory name = entry directory' name') :
    directory = directory' ∧ name = name' := by
  have hroot : ∀ {d n m : String}, '/' ∉ m.toList → d ++ "/" ++ n ≠ m := by
    intro d n m hm heq
    rw [← heq] at hm
    simp at hm
  unfold entry at h
  split at h
  · rename_i hd
    split at h
    · rename_i hd'
      exact ⟨(beq_iff_eq.mp hd).trans (beq_iff_eq.mp hd').symm, h⟩
    · exact absurd h.symm (hroot hname)
  · split at h
    · exact absurd h (hroot hname')
    · have hsegments := congrArg segments h
      rw [segments_append_slash, segments_append_slash, segments_of_not_mem hname, segments_of_not_mem hname']
        at hsegments
      obtain ⟨hdirectory, hlast⟩ := List.append_inj' hsegments rfl
      exact ⟨segments_injective hdirectory, List.singleton_inj.mp hlast⟩

end Path

end LayerLint
