import LayerLint.Proofs.Disk.Walk
import LayerLint.Proofs.Path.Segments

/-!
# Ways from one directory to another

The way from a directory to another goes up to where their paths part (`Apart`) and down from there. Following it leads
to the other directory (`goFrom_stepsTo`), and its text has its steps as segments (`segments_wayTo`). So the texts of
ways say which directory lies below which:

- `isUnder_wayTo_wayTo_iff`: a directory that is not on the way to the start;
- `isUnder_wayTo_iff`: a path that is written in any way, which counts only if it is written as the way itself.
-/

namespace LayerLint

namespace Path

theorem not_startsWith_trimSlashes (path : String) : ¬ Text.startsWith (trimSlashes path) "/" = true := by
  rw [Text.startsWith_iff, trimSlashes]
  rintro ⟨rest, hrest⟩
  have hlead : dropTrailingSlashes (path.toList.dropWhile (· == '/')) <+: path.toList.dropWhile (· == '/') := by
    rw [dropTrailingSlashes, ← List.reverse_suffix, List.reverse_reverse]
    exact List.dropWhile_suffix _
  rw [String.toList_ofList (l := dropTrailingSlashes _)] at hrest
  rw [← hrest] at hlead
  obtain ⟨more, hmore⟩ := hlead
  have hne : path.toList.dropWhile (· == '/') ≠ [] := by
    rw [← hmore]
    simp
  have hhead := List.head_dropWhile_not (· == '/') hne
  simp [← hmore] at hhead

end Path

namespace Location

variable {start target here common up down steps way : List String}

/-! ## The parts of a location -/

/-- Each part of a location goes up or is a name. -/
theorem mem_parse {path part : String} (h : part ∈ (parse path).parts) : part = ".." ∨ Disk.IsName part := by
  obtain ⟨hsegment, hkept⟩ := List.mem_filter.mp h
  rw [Bool.and_eq_true, Bool.not_eq_true', bne_iff_ne] at hkept
  by_cases hup : part = ".."
  · exact .inl hup
  · exact .inr ⟨by simpa using hkept.1, Path.not_mem_of_mem_segments hsegment, hkept.2, hup⟩

theorem not_mem_of_step {part : String} (h : part = ".." ∨ Disk.IsName part) : '/' ∉ part.toList := by
  rcases h with rfl | h
  · decide
  · exact h.noSlash

/-- A name is the only part of the location that it names. -/
theorem parts_parse_of_isName {name : String} (h : Disk.IsName name) : (parse name).parts = [name] := by
  rw [parse, Path.segments_of_not_mem h.noSlash]
  simp [h.ne_empty, h.ne_here]

theorem parts_parse_append_slash (before after : String) :
    (parse (before ++ "/" ++ after)).parts = (parse before).parts ++ (parse after).parts := by
  simp [parse, Path.segments_append_slash]

/-- Slashes at the ends of a path do not count. -/
theorem parts_parse_trimSlashes (path : String) : (parse (Path.trimSlashes path)).parts = (parse path).parts := by
  have hempty : (parse "").parts = [] := by decide
  have hlead : ∀ text : List Char,
      (parse (String.ofList (text.dropWhile (· == '/')))).parts = (parse (String.ofList text)).parts := by
    intro text
    induction text with
    | nil => rfl
    | cons c text ih =>
      by_cases hc : c = '/'
      · subst hc
        have htext : String.ofList ('/' :: text) = "" ++ "/" ++ String.ofList text := String.toList_inj.mp (by simp)
        rw [htext, parts_parse_append_slash, hempty, List.nil_append, ← ih, List.dropWhile_cons_of_pos (by simp)]
      · rw [List.dropWhile_cons_of_neg (by simpa using hc)]
  have htail : ∀ text : List Char,
      (parse (String.ofList (text.dropWhile (· == '/')).reverse)).parts =
        (parse (String.ofList text.reverse)).parts := by
    intro text
    induction text with
    | nil => rfl
    | cons c text ih =>
      by_cases hc : c = '/'
      · subst hc
        have htext : String.ofList ('/' :: text).reverse = String.ofList text.reverse ++ "/" ++ "" :=
          String.toList_inj.mp (by simp)
        rw [htext, parts_parse_append_slash, hempty, List.append_nil, ← ih, List.dropWhile_cons_of_pos (by simp)]
      · rw [List.dropWhile_cons_of_neg (by simpa using hc)]
  rw [Path.trimSlashes, Path.dropTrailingSlashes, htail, List.reverse_reverse, hlead, String.ofList_toList]

/-- A path that does not begin with a slash leads below a location. -/
theorem join_eq_below {location : Location} {path : String} (h : ¬ Text.startsWith path "/" = true) :
    location.join path = location.below (parse path).parts := by
  have hrelative : ¬ (parse path).absolute = true := h
  unfold join
  dsimp only
  rw [if_neg hrelative]
  rfl

/-! ## Following steps -/

/-- Where steps lead from a directory. -/
def goFrom (start steps : List String) : List String :=
  steps.foldl (fun kept part => if part == ".." then kept.dropLast else kept ++ [part]) start

theorem collapse_append (first more : List String) : collapse (first ++ more) = goFrom (collapse first) more :=
  List.foldl_append

theorem goFrom_append (start first more : List String) :
    goFrom start (first ++ more) = goFrom (goFrom start first) more :=
  List.foldl_append

theorem goFrom_cons (start more : List String) (part : String) :
    goFrom start (part :: more) = goFrom (if part = ".." then start.dropLast else start ++ [part]) more := by
  simp [goFrom]

theorem goFrom_replicate (start : List String) (n : Nat) :
    goFrom start (List.replicate n "..") = start.take (start.length - n) := by
  induction n generalizing start with
  | zero => simp [goFrom]
  | succ n ih =>
    rw [List.replicate_succ, goFrom_cons, if_pos rfl, ih, List.dropLast_eq_take, List.take_take, List.length_take]
    congr 1
    omega

theorem goFrom_of_ne (start : List String) {names : List String} (h : ∀ name ∈ names, name ≠ "..") :
    goFrom start names = start ++ names := by
  induction names generalizing start with
  | nil => simp [goFrom]
  | cons name names ih =>
    obtain ⟨hname, hnames⟩ := List.forall_mem_cons.mp h
    rw [goFrom_cons, if_neg hname, ih _ hnames, List.append_assoc, List.singleton_append]

/-! ## Directories that names lead to -/

/-- A directory that is reached by names from one above the start, or from the start itself. -/
def IsNamedFrom (start target : List String) : Prop :=
  ∃ above names, above <+: start ∧ target = above ++ names ∧ ∀ name ∈ names, Disk.IsName name

theorem IsNamedFrom.refl (start : List String) : IsNamedFrom start start :=
  ⟨start, [], List.prefix_rfl, by simp, by simp⟩

theorem IsNamedFrom.append (h : IsNamedFrom start target) (hway : ∀ name ∈ way, Disk.IsName name) :
    IsNamedFrom start (target ++ way) := by
  obtain ⟨above, names, habove, rfl, hnames⟩ := h
  refine ⟨above, names ++ way, habove, List.append_assoc _ _ _, fun name hname => ?_⟩
  rcases List.mem_append.mp hname with hname | hname
  · exact hnames name hname
  · exact hway name hname

theorem IsNamedFrom.dropLast (h : IsNamedFrom start target) : IsNamedFrom start target.dropLast := by
  obtain ⟨above, names, habove, rfl, hnames⟩ := h
  by_cases hne : names = []
  · subst hne
    rw [List.append_nil]
    exact ⟨above.dropLast, [], (List.dropLast_prefix above).trans habove, by simp, by simp⟩
  · rw [List.dropLast_append_of_ne_nil hne]
    exact ⟨above, names.dropLast, habove, rfl, fun name hname => hnames name (List.mem_of_mem_dropLast hname)⟩

/-- From a directory that can be reached by names steps lead to another. -/
theorem IsNamedFrom.goFrom (h : IsNamedFrom start here) (hsteps : ∀ part ∈ steps, part = ".." ∨ Disk.IsName part) :
    IsNamedFrom start (goFrom here steps) := by
  induction steps generalizing here with
  | nil => exact h
  | cons part steps ih =>
    obtain ⟨hpart, hmore⟩ := List.forall_mem_cons.mp hsteps
    rw [goFrom_cons]
    split
    · exact ih h.dropLast hmore
    · rename_i hne
      exact ih (h.append (by simpa using hpart.resolve_left hne)) hmore

theorem IsNamedFrom.of_nil (h : IsNamedFrom [] target) : IsNamedFrom start target := by
  obtain ⟨above, names, habove, rfl, hnames⟩ := h
  rw [List.prefix_nil.mp habove]
  exact ⟨[], names, List.nil_prefix, rfl, hnames⟩

/-! ## Absolute paths -/

variable {current : List String} {location : Location}

theorem absoluteParts_below (current : List String) (location : Location) (way : List String) :
    (location.below way).absoluteParts current = goFrom (location.absoluteParts current) way := by
  unfold absoluteParts below
  dsimp only
  split
  · exact collapse_append _ _
  · rw [← List.append_assoc, collapse_append]

theorem absoluteParts_below_of_names (hway : ∀ name ∈ way, Disk.IsName name) :
    (location.below way).absoluteParts current = location.absoluteParts current ++ way := by
  rw [absoluteParts_below, goFrom_of_ne _ fun name hname => (hway name hname).ne_up]

theorem isNamedFrom_join (current : List String) (location : Location) (path : String) :
    IsNamedFrom (location.absoluteParts current) ((location.join path).absoluteParts current) := by
  by_cases habsolute : Text.startsWith path "/" = true
  · have hjoin : (location.join path).absoluteParts current = Location.goFrom [] (parse path).parts := by
      have hparse : (parse path).absolute = true := habsolute
      unfold join absoluteParts
      dsimp only
      rw [if_pos hparse, if_pos hparse]
      rfl
    rw [hjoin]
    exact ((IsNamedFrom.refl []).goFrom fun part hpart => mem_parse hpart).of_nil
  · rw [join_eq_below habsolute, absoluteParts_below]
    exact (IsNamedFrom.refl _).goFrom fun part hpart => mem_parse hpart

/-! ## Where ways part -/

/-- Two ways have no first step in common. -/
def Apart (up down : List String) : Prop := ∀ name ∈ up.head?, name ∉ down.head?

theorem Apart.eq_nil (h : Apart up down) {more : List String} (hup : more <+: up) (hdown : more <+: down) :
    more = [] := by
  cases more with
  | nil => rfl
  | cons name more =>
    obtain ⟨rest, rfl⟩ := hup
    obtain ⟨rest', rfl⟩ := hdown
    exact (h name rfl rfl).elim

theorem exists_apart (start target : List String) :
    ∃ common up down, start = common ++ up ∧ target = common ++ down ∧ Apart up down := by
  induction start generalizing target with
  | nil => exact ⟨[], [], target, rfl, rfl, by simp [Apart]⟩
  | cons name start ih =>
    cases target with
    | nil => exact ⟨[], name :: start, [], rfl, rfl, by simp [Apart]⟩
    | cons name' target =>
      by_cases heq : name = name'
      · subst heq
        obtain ⟨common, up, down, rfl, rfl, hapart⟩ := ih target
        exact ⟨name :: common, up, down, rfl, rfl, hapart⟩
      · exact ⟨[], name :: start, name' :: target, rfl, rfl, by simpa [Apart] using Ne.symm heq⟩

theorem dropCommon_of_apart (h : Apart up down) : dropCommon (common ++ up) (common ++ down) = (up, down) := by
  induction common with
  | nil =>
    cases up with
    | nil => rfl
    | cons name up =>
      cases down with
      | nil => rfl
      | cons name' down =>
        have hne : name ≠ name' := by
          rintro rfl
          exact h name rfl rfl
        rw [List.nil_append, List.nil_append, dropCommon, if_neg hne]
  | cons name common ih => rw [List.cons_append, List.cons_append, dropCommon, if_pos rfl, ih]

/-- What leads down to a directory that names lead to are names. -/
theorem IsNamedFrom.isName_down (h : IsNamedFrom (common ++ up) (common ++ down)) (hapart : Apart up down) :
    ∀ name ∈ down, Disk.IsName name := by
  obtain ⟨above, names, habove, htarget, hnames⟩ := h
  rcases List.prefix_or_prefix_of_prefix habove (List.prefix_append common up) with hshort | hlong
  · obtain ⟨more, rfl⟩ := hshort
    rw [List.append_assoc, List.append_cancel_left_eq] at htarget
    subst htarget
    exact fun name hname => hnames name (List.mem_append_right _ hname)
  · obtain ⟨more, rfl⟩ := hlong
    rw [List.append_assoc, List.append_cancel_left_eq] at htarget
    have hnil := hapart.eq_nil ((List.prefix_append_right_inj _).mp habove) ⟨names, htarget.symm⟩
    rw [htarget, hnil, List.nil_append]
    exact hnames

/-! ## The way to a directory -/

/-- The steps of the way to a directory. -/
def stepsTo (start target : List String) : List String :=
  List.replicate (dropCommon start target).1.length ".." ++ (dropCommon start target).2

theorem stepsTo_of_apart (h : Apart up down) :
    stepsTo (common ++ up) (common ++ down) = List.replicate up.length ".." ++ down := by
  rw [stepsTo, dropCommon_of_apart h]

theorem wayTo_eq (start target : List String) : wayTo start target =
    if stepsTo start target = [] then Path.rootDir else Text.join "/" (stepsTo start target) := by
  simp only [← List.isEmpty_iff]
  rfl

theorem goFrom_stepsTo (h : IsNamedFrom start target) : goFrom start (stepsTo start target) = target := by
  obtain ⟨common, up, down, rfl, rfl, hapart⟩ := exists_apart start target
  rw [stepsTo_of_apart hapart, goFrom_append, goFrom_replicate,
    goFrom_of_ne _ fun name hname => (h.isName_down hapart name hname).ne_up]
  congr 1
  rw [List.length_append, Nat.add_sub_cancel, List.take_left]

/-- Each step goes up or is a name. -/
theorem IsNamedFrom.mem_stepsTo (h : IsNamedFrom start target) {part : String} (hpart : part ∈ stepsTo start target) :
    part = ".." ∨ Disk.IsName part := by
  obtain ⟨common, up, down, rfl, rfl, hapart⟩ := exists_apart start target
  rw [stepsTo_of_apart hapart] at hpart
  rcases List.mem_append.mp hpart with hpart | hpart
  · exact .inl (List.eq_of_mem_replicate hpart)
  · exact .inr (h.isName_down hapart part hpart)

theorem stepsTo_eq_nil (h : IsNamedFrom start target) : stepsTo start target = [] ↔ target = start := by
  constructor
  · intro hnil
    have hgo := goFrom_stepsTo h
    rw [hnil] at hgo
    exact hgo.symm
  · rintro rfl
    have hsteps : stepsTo (target ++ []) (target ++ []) = List.replicate ([] : List String).length ".." ++ [] :=
      stepsTo_of_apart (by simp [Apart])
    rwa [List.append_nil] at hsteps

/-- The segments of the text of a way are its steps. -/
theorem segments_wayTo (h : IsNamedFrom start target) :
    Path.segments (wayTo start target) = if target = start then ["."] else stepsTo start target := by
  rw [wayTo_eq]
  simp only [stepsTo_eq_nil h]
  split
  · exact Path.segments_of_not_mem (by decide)
  · rename_i hne
    exact Path.segments_join (fun hnil => hne ((stepsTo_eq_nil h).mp hnil)) fun part hpart =>
      not_mem_of_step (h.mem_stepsTo hpart)

/-! ## Comparing the texts of ways -/

/-- What begins the steps of a way goes up only, or goes all the way up and on. -/
theorem prefix_steps {n : Nat} (h : steps <+: List.replicate n ".." ++ down) :
    (steps = List.replicate steps.length ".." ∧ steps.length ≤ n) ∨
      ∃ more, more ≠ [] ∧ more <+: down ∧ steps = List.replicate n ".." ++ more := by
  rcases List.prefix_or_prefix_of_prefix h (List.prefix_append _ down) with hshort | hlong
  · exact .inl ((List.prefix_replicate_iff).mp hshort).symm
  · obtain ⟨more, rfl⟩ := hlong
    by_cases hmore : more = []
    · subst hmore
      simp
    · exact .inr ⟨more, hmore, (List.prefix_append_right_inj _).mp h, rfl⟩

/-- The way goes on below a directory unless that leads back towards the start. -/
theorem stepsTo_append {directory : List String} (hne : directory ≠ start)
    (hway : way = [] ∨ ¬ directory ++ way.take 1 <+: start) :
    stepsTo start (directory ++ way) = stepsTo start directory ++ way := by
  obtain ⟨common, up, down, rfl, rfl, hapart⟩ := exists_apart start directory
  have hmore : Apart up (down ++ way) := by
    cases down with
    | cons name down => exact hapart
    | nil =>
      rw [List.append_nil] at hway
      rintro name hup hdown
      obtain ⟨rest, rfl⟩ := List.head?_eq_some_iff.mp hdown
      rcases hway with hnil | hway
      · cases hnil
      · obtain ⟨rest', rfl⟩ := List.head?_eq_some_iff.mp hup
        exact hway ⟨rest', by simp⟩
  rw [List.append_assoc, stepsTo_of_apart hmore, stepsTo_of_apart hapart, List.append_assoc]

/-- **A directory that is not on the way to the start** has another below it just if their ways say so. -/
theorem isUnder_wayTo_wayTo_iff {directory : List String} (hdirectory : IsNamedFrom start directory)
    (htarget : IsNamedFrom start target) (hout : ¬ directory <+: start) :
    Path.isUnder (wayTo start target) (wayTo start directory) = true ↔ directory <+: target := by
  have hne : directory ≠ start := fun heq => hout (heq ▸ List.prefix_rfl)
  have hgo := goFrom_stepsTo hdirectory
  rw [Path.isUnder_iff, segments_wayTo hdirectory, if_neg hne, segments_wayTo htarget]
  constructor
  · intro h
    by_cases hhere : target = start
    · -- the only step would be a dot
      rw [if_pos hhere] at h
      obtain ⟨part, hpart⟩ := List.exists_mem_of_ne_nil _ fun hnil => hne ((stepsTo_eq_nil hdirectory).mp hnil)
      obtain rfl := List.mem_singleton.mp (h.mem hpart)
      exact absurd (hdirectory.mem_stepsTo hpart) (by decide +kernel)
    · rw [if_neg hhere] at h
      obtain ⟨common, up, down, rfl, rfl, hapart⟩ := exists_apart start target
      rw [stepsTo_of_apart hapart] at h
      rcases prefix_steps h with ⟨hup, -⟩ | ⟨more, -, hdown, hsteps⟩
      · rw [hup, goFrom_replicate] at hgo
        exact absurd (hgo ▸ List.take_prefix _ _) hout
      · rw [hsteps, goFrom_append, goFrom_replicate, List.length_append, Nat.add_sub_cancel, List.take_left,
          goFrom_of_ne _ fun name hname => (htarget.isName_down hapart name (hdown.mem hname)).ne_up] at hgo
        rw [← hgo]
        exact (List.prefix_append_right_inj _).mpr hdown
  · rintro ⟨way, rfl⟩
    have hbeyond : ¬ directory ++ way <+: start := fun h => hout ((List.prefix_append _ _).trans h)
    rw [if_neg fun heq : directory ++ way = start => hbeyond (heq ▸ List.prefix_rfl),
      stepsTo_append hne (.inr fun h => hout ((List.prefix_append _ _).trans h))]
    exact List.prefix_append _ _

/-- Steps are the parts of the location that their path names, and its path is not absolute. -/
theorem parse_of_steps {path : String} (h : ∀ part ∈ Path.segments path, part = ".." ∨ Disk.IsName part) :
    ¬ Text.startsWith path "/" = true ∧ (parse path).parts = Path.segments path := by
  constructor
  · rw [Text.startsWith_iff]
    rintro ⟨rest, hrest⟩
    have hempty : "" ∈ Path.segments path := by
      rw [Path.segments, ← hrest]
      exact List.mem_map.mpr ⟨[], by simp [Text.splitAt], rfl⟩
    exact absurd (h "" hempty) (by decide +kernel)
  · refine List.filter_eq_self.mpr fun part hpart => ?_
    rcases h part hpart with rfl | hname
    · decide
    · simp [hname.ne_empty, hname.ne_here]

/-- The directory at `way` counts as one below another: it is that directory, or lies below it and not on the way back
to the start. -/
def CountsBelow (start directory way : List String) : Prop :=
  way = [] ∨ directory ≠ start ∧ ¬ directory ++ way.take 1 <+: start

/-- Where the first steps of a way lead to a directory that it passes, they are the way to that directory. -/
theorem eq_stepsTo_of_prefix {directory : List String} (htarget : IsNamedFrom start (directory ++ way))
    (hsteps : steps <+: stepsTo start (directory ++ way)) (hne : steps ≠ []) (hgo : directory = goFrom start steps) :
    steps = stepsTo start directory ∧ CountsBelow start directory way ∧ directory ≠ start := by
  obtain ⟨common, up, down, rfl, heq, hapart⟩ := exists_apart start (directory ++ way)
  rw [heq] at htarget hsteps
  rw [stepsTo_of_apart hapart] at hsteps
  -- the steps go all the way up, for otherwise they would end on the way back
  have hpassed : ∃ more, more <+: down ∧ steps = List.replicate up.length ".." ++ more ∧
      directory = common ++ more := by
    rcases prefix_steps hsteps with ⟨hup, hle⟩ | ⟨more, -, hdown, hup⟩
    · rw [hup, goFrom_replicate, List.length_append, Nat.add_sub_assoc hle, List.take_length_add_append] at hgo
      have hback : up.take (up.length - steps.length) <+: down :=
        (List.prefix_append_right_inj common).mp (hgo ▸ heq ▸ List.prefix_append _ _)
      have hnil := hapart.eq_nil (List.take_prefix _ _) hback
      have hlength := congrArg List.length hnil
      rw [List.length_take, List.length_nil] at hlength
      refine ⟨[], List.nil_prefix, ?_, by rw [hgo, hnil]⟩
      rw [List.append_nil, hup]
      congr 1
      omega
    · refine ⟨more, hdown, hup, ?_⟩
      rw [hgo, hup, goFrom_append, goFrom_replicate, List.length_append, Nat.add_sub_cancel, List.take_left]
      exact goFrom_of_ne _ fun name hname => (htarget.isName_down hapart name (hdown.mem hname)).ne_up
  obtain ⟨more, hdown, hup, rfl⟩ := hpassed
  rw [List.append_assoc, List.append_cancel_left_eq] at heq
  subst heq
  have hstart : common ++ more ≠ common ++ up := by
    intro hsame
    rw [List.append_cancel_left_eq] at hsame
    subst hsame
    have hnil := hapart.eq_nil List.prefix_rfl hdown
    exact hne (by rw [hup, hnil]; rfl)
  have hmore : Apart up more := by
    intro name hname hname'
    exact hapart name hname (by rw [List.head?_append, hname']; rfl)
  refine ⟨?_, ?_, hstart⟩
  · rw [stepsTo_of_apart hmore, hup]
  · by_cases hway : way = []
    · exact .inl hway
    · refine .inr ⟨hstart, fun hback => ?_⟩
      rw [List.append_assoc, List.prefix_append_right_inj] at hback
      have hnil := hapart.eq_nil hback ((List.prefix_append_right_inj _).mpr (List.take_prefix _ _))
      simp [hway] at hnil

/-- **A path has what lies below its directory below it** if it is written as the way to the directory. -/
theorem isUnder_wayTo_iff {path : String} {directory : List String} (hdirectory : IsNamedFrom start directory)
    (hpath : ¬ Text.startsWith path "/" = true → directory = goFrom start (parse path).parts)
    (hway : ∀ name ∈ way, Disk.IsName name) :
    Path.isUnder (wayTo start (directory ++ way)) path = true ↔
      path = wayTo start directory ∧ CountsBelow start directory way := by
  have htarget := hdirectory.append hway
  have hdot : Path.segments "." = ["."] := Path.segments_of_not_mem (by decide)
  rw [Path.isUnder_iff, segments_wayTo htarget]
  constructor
  · intro h
    by_cases hhere : directory ++ way = start
    · -- the path is a single dot, so its directory is the start
      rw [if_pos hhere, List.prefix_cons_iff] at h
      obtain ⟨rest, hpath', hrest⟩ := h.resolve_left (Path.segments_ne_nil path)
      obtain rfl := List.prefix_nil.mp hrest
      obtain rfl : path = "." := Path.segments_injective (hpath'.trans hdot.symm)
      obtain rfl : directory = start := hpath (by decide)
      refine ⟨Path.segments_injective ?_, .inl (List.append_right_eq_self.mp hhere)⟩
      rw [segments_wayTo hdirectory, if_pos rfl, hdot]
    · rw [if_neg hhere] at h
      have hsteps : ∀ part ∈ Path.segments path, part = ".." ∨ Disk.IsName part := fun part hpart =>
        htarget.mem_stepsTo (h.mem hpart)
      obtain ⟨hrelative, hparts⟩ := parse_of_steps hsteps
      obtain ⟨hway, hcounts, hne⟩ := eq_stepsTo_of_prefix htarget h (Path.segments_ne_nil path)
        (hparts ▸ hpath hrelative)
      refine ⟨Path.segments_injective ?_, hcounts⟩
      rw [segments_wayTo hdirectory, if_neg hne, hway]
  · rintro ⟨rfl, hcounts⟩
    rw [segments_wayTo hdirectory]
    rcases hcounts with rfl | ⟨hne, hcounts⟩
    · rw [List.append_nil]
    · rw [if_neg hne, if_neg, stepsTo_append hne (.inr hcounts)]
      · exact List.prefix_append _ _
      · intro heq
        exact hcounts (heq ▸ (List.prefix_append_right_inj _).mpr (List.take_prefix _ _))

/-- A way says where it leads. -/
theorem wayTo_injective {directory : List String} (hdirectory : IsNamedFrom start directory)
    (htarget : IsNamedFrom start target) (h : wayTo start directory = wayTo start target) : directory = target := by
  have hsegments := congrArg Path.segments h
  rw [segments_wayTo hdirectory, segments_wayTo htarget] at hsegments
  have hdot : ∀ {other : List String}, IsNamedFrom start other → ["."] ≠ stepsTo start other := by
    intro other hother heq
    exact absurd (hother.mem_stepsTo (heq ▸ List.mem_singleton_self ".")) (by decide +kernel)
  split at hsegments
  · rename_i hhere
    split at hsegments
    · rename_i hhere'
      rw [hhere, hhere']
    · exact absurd hsegments (hdot htarget)
  · split at hsegments
    · exact absurd hsegments.symm (hdot hdirectory)
    · rw [← goFrom_stepsTo hdirectory, hsegments, goFrom_stepsTo htarget]

end Location

end LayerLint
