import Mathlib.Data.List.Lex
import Mathlib.Data.String.Basic
import SvelteStories.Proofs.DirectoryWalk
import SvelteStories.Proofs.Outcome

/-!
# What discovery finds

`discover` walks from the base, lists the ways of names to stories files and sorts them.  Its paths
are said here by what `resolve` finds at them and at the paths of the directories on their way, with
no walk in sight: where a path leads, through no more links than the system follows on one path, is
all that counts.

## Key results

- `pairwise_discover`: the paths are in order, and none is there twice
- `mem_discover_iff`: which paths are found
- `discover_exact`: both, and how long the walk can go on
-/

namespace SvelteStories.Files

variable {root : Entry} {base path name : String} {names : List String} {place : WalkPlace}
  {entries : List (String × Entry)} {found : Place}

/-! ## The order -/

/-- The order of ways of names is the lexicographic one. -/
theorem comesBefore_iff {a b : List String} : comesBefore a b = true ↔ a ≤ b := by
  rw [le_iff_eq_or_lt]
  change _ ↔ a = b ∨ List.Lex (· < ·) a b
  induction a generalizing b with
  | nil => cases b <;> simp [comesBefore]
  | cons first as ih =>
    cases b with
    -- nothing comes before the empty list
    | nil => simp [comesBefore]
    | cons second bs =>
      rw [comesBefore, List.cons.injEq]
      split
      · -- with the same first name the others decide, and otherwise the first names do
        rename_i heq
        obtain rfl := beq_iff_eq.mp heq
        rw [ih, List.lex_cons_iff, eq_self_iff_true, true_and]
      · rename_i hne
        have hne : first ≠ second := by simpa using hne
        rw [decide_eq_true_eq]
        constructor
        · exact fun hlt => .inr (.rel hlt)
        · rintro (⟨heq, -⟩ | hlex)
          · exact absurd heq hne
          · cases hlex with
            | rel hlt => exact hlt
            | cons _ => exact absurd rfl hne

/-- The ways are sorted in their order. -/
theorem pairwise_mergeSort_comesBefore (ways : List (List String)) :
    (ways.mergeSort comesBefore).Pairwise fun a b => a ≤ b := by
  refine (List.pairwise_mergeSort ?_ ?_ ways).imp comesBefore_iff.mp
  · intro a b c hab hbc
    rw [comesBefore_iff] at hab hbc ⊢
    exact le_trans hab hbc
  · intro a b
    rw [Bool.or_eq_true, comesBefore_iff, comesBefore_iff]
    exact le_total a b

/-- Ways that are all different are in strict order when they are sorted. -/
theorem pairwise_lex {ways : List (List String)} (h : ways.Nodup) :
    (ways.mergeSort comesBefore).Pairwise (List.Lex (· < ·)) :=
  (pairwise_mergeSort_comesBefore ways).imp₂ (fun _ _ hle hne => lt_of_le_of_ne hle hne)
    ((List.mergeSort_perm ways comesBefore).nodup_iff.mpr h)

/-! ## No path is listed twice -/

/-- At an entry nothing is listed, or the entry itself, or what is in a directory: one that is
    smaller, or one that fewer links may lead on from. -/
theorem storiesAt_cases (htree : root.IsTree) {entry : Entry} (hentry : entry.IsTree)
    (place : WalkPlace) (name : String) :
    storiesAt root place name entry = [] ∨ storiesAt root place name entry = [[name]] ∨
      ∃ next inside, (Entry.directory inside).IsTree ∧
        (next.links < place.links ∨ next.links = place.links ∧ sizeOf inside < sizeOf entry) ∧
        storiesAt root place name entry = (storiesAmong root next inside).map (name :: ·) := by
  cases entry with
  | file bytes =>
    rw [storiesAt]
    split
    · exact .inr (.inl rfl)
    · exact .inl rfl
  | directory entries =>
    rw [storiesAt]
    split
    · exact .inl rfl
    · exact .inr (.inr ⟨place.below (name :: place.location) place.links, entries, hentry,
        .inr ⟨rfl, by simp⟩, rfl⟩)
  | link target =>
    rw [storiesAt]
    -- of a link it matters where it leads, and whether links are left
    split
    · exact .inl rfl
    · rename_i found hfollow
      split
      · split
        · exact .inr (.inl rfl)
        · exact .inl rfl
      · exact .inl rfl
      · rename_i inside hinside
        split
        · exact .inl rfl
        · split
          · rename_i hlt
            exact .inr (.inr ⟨_, inside, hinside ▸ htree.at? (at?_of_follow hfollow).1,
              .inl hlt, rfl⟩)
          · exact .inl rfl

/-- What is listed at an entry starts with its name. -/
theorem exists_cons_of_mem_storiesAt (htree : root.IsTree) {entry : Entry} (hentry : entry.IsTree)
    (h : names ∈ storiesAt root place name entry) : ∃ rest, names = name :: rest := by
  rcases storiesAt_cases htree hentry place name with hnone | hself | ⟨next, inside, -, -, hinside⟩
  · rw [hnone] at h
    cases h
  · rw [hself] at h
    exact ⟨[], List.mem_singleton.mp h⟩
  · rw [hinside] at h
    obtain ⟨rest, -, rfl⟩ := List.mem_map.mp h
    exact ⟨rest, rfl⟩

/-- No way of names is listed twice in a directory. -/
theorem nodup_storiesAmong (htree : root.IsTree) (place : WalkPlace)
    (entries : List (String × Entry))
    (hentries : (Entry.directory entries).IsTree) : (storiesAmong root place entries).Nodup := by
  -- by recursion as the walk itself ends: fewer links are left, or a smaller directory is
  match entries with
  | [] =>
    rw [storiesAmong]
    exact List.nodup_nil
  | (name, entry) :: rest =>
    obtain ⟨hnodup, hnames, hbelow⟩ := hentries.of_directory
    rw [List.map_cons, List.nodup_cons] at hnodup
    rw [List.map_cons, List.forall_mem_cons] at hnames hbelow
    have hrest : (storiesAmong root place rest).Nodup :=
      nodup_storiesAmong htree place rest (.directory hnodup.2 hnames.2 hbelow.2)
    have hfirst : (storiesAt root place name entry).Nodup := by
      rcases storiesAt_cases htree hbelow.1 place name with h | h | ⟨next, inside,
        hinside, hsmaller, h⟩
      · exact h ▸ List.nodup_nil
      · exact h ▸ List.pairwise_singleton _ _
      · rw [h]
        exact (nodup_storiesAmong htree next inside hinside).map (List.cons_injective)
    rw [storiesAmong, List.nodup_append]
    refine ⟨hfirst, hrest, ?_⟩
    -- the ways at an entry start with its name, which no other entry has
    intro way hway other hother heq
    obtain ⟨_, rfl⟩ := exists_cons_of_mem_storiesAt htree hbelow.1 hway
    obtain ⟨second, entry', hmem, hat⟩ := mem_storiesAmong.mp hother
    obtain ⟨_, rfl⟩ :=
      exists_cons_of_mem_storiesAt htree (hbelow.2 _ (List.mem_map_of_mem hmem)) hat
    obtain rfl := (List.cons.inj heq).1
    exact hnodup.1 (List.mem_map.mpr ⟨_, hmem, rfl⟩)
termination_by (place.links, sizeOf entries)
decreasing_by
  · simp_wf
    exact Prod.Lex.right _ (by omega)
  · simp_wf
    rcases hsmaller with hlt | ⟨heq, hlt⟩
    · exact Prod.Lex.left _ _ hlt
    · rw [heq]
      simp only at hlt
      exact Prod.Lex.right _ (by omega)

/-! ## Names of stories files and of directories that are left out -/

/-- The names that are not left out. -/
theorem isIgnoredName_eq_false_iff : isIgnoredName name = false ↔
    name ≠ "node_modules" ∧ name.toList.head? ≠ some '.' := by
  rw [isIgnoredName, Bool.or_eq_false_iff, beq_eq_false_iff_ne, beq_eq_false_iff_ne]

/-- The name of a stories file has something in front of the ending. -/
theorem isStoriesName_iff : isStoriesName name = true ↔
    ∃ stem, stem ≠ [] ∧ name.toList = stem ++ storiesEnding.toList := by
  rw [isStoriesName, ← String.length_toList]
  simp only [gt_iff_lt, Bool.and_eq_true, decide_eq_true_eq, beq_iff_eq]
  constructor
  · rintro ⟨hlength, hdrop⟩
    -- the stem is what stands in front of the ending
    refine ⟨name.toList.take (name.toList.length - storiesEnding.toList.length), ?_, ?_⟩
    · rw [← List.length_pos_iff, List.length_take]
      omega
    · conv_lhs => rw [← List.take_append_drop (name.toList.length - storiesEnding.toList.length)
        name.toList, hdrop]
  · rintro ⟨stem, hne, hname⟩
    rw [hname, List.length_append, Nat.add_sub_cancel, List.drop_left]
    exact ⟨Nat.lt_add_of_pos_left (List.length_pos_iff.mpr hne), rfl⟩

/-- A path leads to a stories file by its name if its last name is longer than the ending and ends
    with it. -/
theorem isStoriesPath_iff : isStoriesPath path = true ↔
    ∃ name stem, fileName? path = some name ∧ stem ≠ [] ∧
      name.toList = stem ++ storiesEnding.toList := by
  rw [isStoriesPath, Option.any_eq_true]
  constructor
  · rintro ⟨name, hname, hstories⟩
    obtain ⟨stem, h⟩ := isStoriesName_iff.mp hstories
    exact ⟨name, stem, hname, h⟩
  · rintro ⟨name, stem, hname, h⟩
    exact ⟨name, hname, isStoriesName_iff.mpr ⟨stem, h⟩⟩

/-! ## Paths below a base -/

/-- The path along names has the trunk of its base, and the names behind it. -/
theorem components_under (hbase : base ≠ "") (hnames : ∀ name ∈ names, IsName name)
    (hne : names ≠ []) :
    components (under base names) = trunk base ++ names := by
  induction names generalizing base with
  | nil => exact absurd rfl hne
  | cons name names ih =>
    obtain ⟨hname, hnames⟩ := List.forall_mem_cons.mp hnames
    obtain ⟨hcomponents, htrunk⟩ := components_join hname hbase
    rw [under, List.foldl_cons, ← under]
    cases names with
    | nil => exact hcomponents
    | cons next names =>
      -- the names behind the first one are put behind its path
      rw [ih (join_ne_empty hbase name) hnames (List.cons_ne_nil _ _), htrunk, List.append_assoc]
      rfl

/-- The file name of a path along names is the last of them. -/
theorem fileName?_under (hbase : base ≠ "") (hnames : ∀ other ∈ names ++ [name], IsName other) :
    fileName? (under base (names ++ [name])) = some name := by
  obtain ⟨hdot, hdots⟩ := (hnames name (by simp)).ne_dots
  have hlast : ((components (under base (names ++ [name]))).filter (· != ".")).getLast? =
      some name := by
    rw [components_under hbase hnames (by simp), ← List.append_assoc, List.filter_append,
      List.filter_cons_of_pos (by simpa using hdot), List.filter_nil, List.getLast?_concat]
  rw [fileName?, hlast]
  split
  · rename_i h
    exact absurd (Option.some.inj h) hdots
  · rfl

/-- A path that leads anywhere is not empty. -/
theorem ne_empty_of_resolve (h : resolve root base = .ok found) : base ≠ "" := by
  rintro rfl
  rw [resolve] at h
  split at h <;> cases h

/-- Names lead on from the place of the base. -/
theorem resolve_under_of_resolve (hbase : resolve root base = .ok found)
    (hnames : ∀ name ∈ names, IsName name) :
    resolve root (under base names) = follow root found.links found.location names := by
  rw [resolve_under root (ne_empty_of_resolve hbase) hnames, hbase]
  rfl

/-! ## What is found -/

/-- A search of a base goes along a way of names: no name on it is left out, and no link on it leads
    to a directory that the search is already inside, from the base on. -/
structure IsSearched (root : Entry) (base : String) (way : List String) : Prop where
  kept : ∀ name ∈ way, name ≠ "node_modules" ∧ name.toList.head? ≠ some '.'
  outside : ∀ before name, before ++ [name] <+: way → ∀ here there,
    resolve root (under base before) = .ok here →
      resolve root (under base (before ++ [name])) = .ok there →
    (root.at? (name :: here.location)).any Entry.isLink = true →
      ∀ earlier, earlier <+: before → ∀ inside, resolve root (under base earlier) = .ok inside →
        there.location ≠ inside.location

/-- A base and a way of names make the path of a stories file that a search of the base is to find.
    Where the way is empty, the base is that path, whatever its directories are called. -/
structure IsStoryBelow (root : Entry) (base : String) (names : List String) : Prop where
  based : ∃ place, resolve root base = .ok place
  valid : ∀ name ∈ names, IsName name
  searched : IsSearched root base names.dropLast
  file : ∃ place bytes, resolve root (under base names) = .ok place ∧ place.entry = .file bytes
  named : ∃ name stem, fileName? (under base names) = some name ∧ stem ≠ [] ∧
    name.toList = stem ++ storiesEnding.toList

/-- A base is found itself if it is a file and its name that of a stories file. -/
theorem isStoryBelow_nil_iff (hbase : resolve root base = .ok found) :
    IsStoryBelow root base [] ↔ (∃ bytes, found.entry = .file bytes) ∧
      isStoriesPath base = true := by
  constructor
  · rintro ⟨-, -, -, ⟨place, bytes, hplace, hbytes⟩, hnamed⟩
    rw [under, List.foldl_nil, hbase] at hplace
    obtain rfl := Except.ok.inj hplace
    exact ⟨⟨bytes, hbytes⟩, isStoriesPath_iff.mpr hnamed⟩
  · rintro ⟨⟨bytes, hbytes⟩, hstories⟩
    refine ⟨⟨found, hbase⟩,
      by simp, ⟨by simp, ?_⟩, ⟨found, bytes, hbase, hbytes⟩, isStoriesPath_iff.mp hstories⟩
    -- without names there are no steps to look at
    intro before name hprefix
    simp at hprefix

/-- Only below a directory can a path be found that is not the base. -/
theorem IsStoryBelow.eq_nil (h : IsStoryBelow root base names)
    (hbase : resolve root base = .ok found)
    (hentry : ∀ entries, found.entry ≠ .directory entries) : names = [] := by
  cases names with
  | nil => rfl
  | cons name names =>
    obtain ⟨there, bytes, hthere, -⟩ := h.file
    rw [resolve_under_of_resolve hbase h.valid] at hthere
    obtain ⟨entries, hat⟩ := exists_directory_of_follow hthere
    exact absurd (Option.some.inj ((at?_of_resolve hbase).symm.trans hat)) (hentry entries)

/-- The walk from a base can go where a search of the base goes. -/
theorem passes_iff_isSearched (hbase : resolve root base = .ok found)
    (hnames : ∀ name ∈ names, IsName name) :
    Passes root ⟨found.location, [], found.links⟩ names ↔
      (∃ there entries, resolve root (under base names) = .ok there ∧
        there.entry = .directory entries) ∧
        IsSearched root base names := by
  -- the paths on the way lead where the walk would go from the base
  have hresolve : ∀ {part}, part <+: names →
      resolve root (under base part) = follow root found.links found.location part := fun hpart =>
    resolve_under_of_resolve hbase fun name hname => hnames name (hpart.subset hname)
  constructor
  · rintro ⟨hleads, hkept, houtside⟩
    refine ⟨hresolve (List.prefix_refl _) ▸ hleads,
      fun name hname => isIgnoredName_eq_false_iff.mp (hkept name hname), ?_⟩
    intro before name hprefix here there hhere hthere hlink earlier hearlier inside hinside
    have hbefore := (List.prefix_append before [name]).trans hprefix
    rw [hresolve hbefore] at hhere
    rw [hresolve hprefix] at hthere
    rw [hresolve (hearlier.trans hbefore)] at hinside
    exact (houtside before name hprefix here there hhere hthere hlink).2 earlier
      hearlier inside hinside
  · -- no link is left behind by the base, so that only links below it count
    rintro ⟨hleads, hkept, houtside⟩
    refine ⟨hresolve (List.prefix_refl _) ▸ hleads,
      fun name hname => isIgnoredName_eq_false_iff.mpr (hkept name hname), ?_⟩
    intro before name hprefix here there hhere hthere hlink
    have hbefore := (List.prefix_append before [name]).trans hprefix
    refine ⟨List.not_mem_nil, fun earlier hearlier inside hinside => ?_⟩
    rw [← hresolve hbefore] at hhere
    rw [← hresolve hprefix] at hthere
    rw [← hresolve (hearlier.trans hbefore)] at hinside
    exact houtside before name hprefix here there hhere hthere hlink earlier hearlier inside hinside

/-- What is listed below a directory is what a search of its path is to find. -/
theorem mem_storiesAmong_iff_isStoryBelow (htree : root.IsTree)
    (hbase : resolve root base = .ok found) (hentry : found.entry = .directory entries) :
    names ∈ storiesAmong root ⟨found.location, [], found.links⟩ entries ↔
      IsStoryBelow root base names := by
  have hplace : root.at? found.location = some (.directory entries) := hentry ▸ at?_of_resolve hbase
  rw [mem_storiesAmong_iff htree hplace]
  constructor
  · rintro ⟨way, name, last, rfl, hwalks, hfinds⟩
    obtain ⟨inside, hfollow⟩ := hwalks.follow_eq hplace
    obtain ⟨entry, hlookup⟩ := hfinds.exists_lookup (at?_of_follow hfollow).1
    have hway := hwalks.isName htree hplace
    -- all names on the way are names of entries
    have hnames : ∀ other ∈ way ++ [name], IsName other :=
      List.forall_mem_append.mpr ⟨hway, List.forall_mem_singleton.mpr
        (isName_of_lookup htree (at?_of_follow hfollow).1 hlookup)⟩
    obtain ⟨-, hsearched⟩ :=
      (passes_iff_isSearched hbase hway).mp ((exists_walks_iff hplace).mp ⟨last, hwalks⟩)
    obtain ⟨hnamed, there, bytes, hthere, hbytes⟩ := hfinds
    refine ⟨⟨found, hbase⟩, hnames, by rwa [List.dropLast_concat], ⟨there, bytes, ?_, hbytes⟩, ?_⟩
    · rw [resolve_under_of_resolve hbase hnames, follow_append, hfollow]
      exact hthere
    · obtain ⟨stem, hstem⟩ := isStoriesName_iff.mp hnamed
      exact ⟨name, stem, fileName?_under (ne_empty_of_resolve hbase) hnames, hstem⟩
  · intro h
    obtain rfl | ⟨way, name, rfl⟩ := names.eq_nil_or_concat'
    · -- the base is a directory, and no file
      obtain ⟨⟨bytes, hbytes⟩, -⟩ := (isStoryBelow_nil_iff hbase).mp h
      rw [hentry] at hbytes
      cases hbytes
    · obtain ⟨-, hnames, hsearched, ⟨there, bytes, hthere, hbytes⟩, hnamed⟩ := h
      have hway : ∀ other ∈ way, IsName other :=
        fun other h => hnames other (List.mem_append_left _ h)
      rw [List.dropLast_concat] at hsearched
      rw [resolve_under_of_resolve hbase hnames] at hthere
      -- the last name is read in the directory that the others lead to
      obtain ⟨mid, hmid, hlast⟩ := exists_follow_of_append hthere
      obtain ⟨inside, hinside⟩ := exists_directory_of_follow hlast
      have hdirectory : mid.entry = .directory inside :=
        Option.some.inj ((at?_of_follow hmid).1.symm.trans hinside)
      rw [← resolve_under_of_resolve hbase hway] at hmid
      -- the walk comes to the place that the path of the file's directory leads to
      obtain ⟨last, hwalks⟩ := (exists_walks_iff hplace).mpr
        ((passes_iff_isSearched hbase hway).mpr ⟨⟨mid, inside, hmid, hdirectory⟩, hsearched⟩)
      obtain ⟨inside', hfollow⟩ := hwalks.follow_eq hplace
      rw [resolve_under_of_resolve hbase hway, hfollow] at hmid
      obtain rfl := Except.ok.inj hmid
      obtain ⟨name', stem, hname', hstem⟩ := hnamed
      rw [fileName?_under (ne_empty_of_resolve hbase) hnames] at hname'
      obtain rfl := Option.some.inj hname'
      exact ⟨way, name, last, rfl, hwalks, isStoriesName_iff.mpr ⟨stem, hstem⟩, there,
        bytes, hlast, hbytes⟩

/-- The paths that are found below a base, or the base itself. -/
theorem mem_discover_iff (htree : root.IsTree) :
    path ∈ discover root base ↔ ∃ names, path = under base names ∧
      IsStoryBelow root base names := by
  rw [discover]
  split
  · -- a base that leads nowhere has no stories files
    rename_i failure hbase
    simp only [List.not_mem_nil, false_iff, not_exists, not_and]
    rintro names - ⟨⟨place, hplace⟩, -⟩
    rw [hbase] at hplace
    cases hplace
  · rename_i found hbase
    split
    · rename_i bytes hentry
      -- a base that is a file is its own only candidate
      have hstory : IsStoryBelow root base [] ↔ isStoriesPath base = true := by
        simp [isStoryBelow_nil_iff hbase, hentry]
      rw [List.mem_ite_nil_right, List.mem_singleton]
      constructor
      · rintro ⟨hstories, rfl⟩
        exact ⟨[], rfl, hstory.mpr hstories⟩
      · rintro ⟨names, rfl, h⟩
        obtain rfl := h.eq_nil hbase (by simp [hentry])
        exact ⟨hstory.mp h, rfl⟩
    · rename_i target hentry
      simp only [List.not_mem_nil, false_iff, not_exists, not_and]
      rintro names - h
      obtain rfl := h.eq_nil hbase (by simp [hentry])
      obtain ⟨⟨bytes, hbytes⟩, -⟩ := (isStoryBelow_nil_iff hbase).mp h
      rw [hentry] at hbytes
      cases hbytes
    · -- a directory is walked, and the ways are put behind the base
      rename_i entries hentry
      rw [List.mem_map]
      constructor
      · rintro ⟨names, hmem, rfl⟩
        exact ⟨names, rfl,
          (mem_storiesAmong_iff_isStoryBelow htree hbase hentry).mp (List.mem_mergeSort.mp hmem)⟩
      · rintro ⟨names, rfl, h⟩
        exact ⟨names, List.mem_mergeSort.mpr
          ((mem_storiesAmong_iff_isStoryBelow htree hbase hentry).mpr h), rfl⟩

/-- The paths are in the order of their components, and none is there twice. -/
theorem pairwise_discover (htree : root.IsTree) :
    (discover root base).Pairwise fun a b => List.Lex (· < ·) (components a) (components b) := by
  rw [discover]
  split
  · exact List.Pairwise.nil
  · rename_i found hbase
    split
    · split
      · exact List.pairwise_singleton _ _
      · exact List.Pairwise.nil
    · exact List.Pairwise.nil
    · rename_i entries hentry
      have hplace : root.at? found.location = some (.directory entries) :=
        hentry ▸ at?_of_resolve hbase
      -- all paths start with the components of the base, so their names decide
      have hlisted : ∀ {names},
        names ∈ (storiesAmong root ⟨found.location, [], found.links⟩ entries).mergeSort
          comesBefore → components (under base names) = trunk base ++ names := fun hmem => by
        have hmem := List.mem_mergeSort.mp hmem
        have hstory := (mem_storiesAmong_iff_isStoryBelow htree hbase hentry).mp hmem
        refine components_under (ne_empty_of_resolve hbase) hstory.valid ?_
        rintro rfl
        obtain ⟨way, name, last, hnil, -⟩ := (mem_storiesAmong_iff htree hplace).mp hmem
        simp at hnil
      rw [List.pairwise_map]
      -- what is listed is sorted and has no duplicates
      refine (pairwise_lex (nodup_storiesAmong htree _ _ (htree.at? hplace))).imp_of_mem ?_
      intro a b ha hb hlex
      rw [← under, ← under, hlisted ha, hlisted hb]
      exact List.Lex.append_left _ hlex _

/-- Discovery is exact.  Through however many links a walk from the base may lead, it is shorter
    than the square of the number of directories, so it ends; the paths that are found strictly
    increase component by component; and they are those of the stories files below the base, or the
    base if it is one. -/
theorem discover_exact (root : Entry) (base : String) (htree : root.IsTree) :
    (∀ found entries, resolve root base = .ok found → found.entry = .directory entries →
      ∀ links way last, Walks root ⟨found.location, [], links⟩ way last →
        way.length < (root.directories []).length * (root.directories []).length) ∧
    (discover root base).Pairwise (fun a b => List.Lex (· < ·) (components a) (components b)) ∧
    ∀ path, path ∈ discover root base ↔ ∃ names, path = under base names ∧
    IsStoryBelow root base names := by
  refine ⟨?_, pairwise_discover htree, fun path => mem_discover_iff htree⟩
  intro found entries hbase hentry links way last hwalks
  have hplace : root.at? found.location = some (.directory entries) := hentry ▸ at?_of_resolve hbase
  exact hwalks.length_lt hplace rfl

/-- A directory with a directory that is left out, a link to nowhere, a second way into a directory
    and a link from there back to the first one. -/
def sampleTree : Entry :=
  .directory [("w", .directory [
    ("B.stories.svelte", .file ByteArray.empty),
    ("a", .directory [("C.stories.svelte", .file ByteArray.empty), ("up", .link "..")]),
    ("also", .link "a"),
    ("gone", .link "nowhere"),
    ("node_modules", .directory [("D.stories.svelte", .file ByteArray.empty)])])]

/-- The sample is a tree. -/
theorem isTree_sampleTree : sampleTree.IsTree := by
  refine .directory (by decide) (by decide) (List.forall_mem_singleton.mpr ?_)
  refine .directory (by decide) (by decide) ?_
  simp only [List.map_cons, List.map_nil, List.forall_mem_cons]
  refine ⟨.file _, .directory (by decide) (by decide) ?_, .link _, .link _,
    .directory (by decide) (by decide) ?_, List.forall_mem_nil _⟩
  · simp only [List.map_cons, List.map_nil, List.forall_mem_cons]
    exact ⟨.file _, .link _, List.forall_mem_nil _⟩
  · exact List.forall_mem_singleton.mpr (.file _)

/-- The files in it, each by every way that leads to it. -/
theorem discover_sampleTree : discover sampleTree "w" =
    ["w/B.stories.svelte", "w/a/C.stories.svelte", "w/also/C.stories.svelte"] := by
  have hcomponents : ∀ name ∈ ["w", "a", "..", "nowhere"], components name = [name] := by decide
  simp only [List.forall_mem_cons] at hcomponents
  obtain ⟨hw, ha, hup, hnowhere, -⟩ := hcomponents
  obtain ⟨entries, hentries⟩ : ∃ entries, sampleTree.at? ["w"] = some (.directory entries) :=
    ⟨_, rfl⟩
  -- the base is a directory, and what is listed in it is computed name by name
  have hresolve : resolve sampleTree "w" = .ok ⟨["w"], .directory entries, mostLinks⟩ := by
    cases hentries
    simp +decide [resolve, follow, sampleTree, Entry.at?, Entry.child?, hw]
  have hlisted : storiesAmong sampleTree ⟨["w"], [], mostLinks⟩ entries =
      [["B.stories.svelte"], ["a", "C.stories.svelte"], ["also", "C.stories.svelte"]] := by
    cases hentries
    simp +decide [storiesAmong, storiesAt, WalkPlace.below, follow, sampleTree,
      Entry.at?, Entry.child?, List.lookup_cons, mostLinks, ha, hup, hnowhere]
  rw [discover, hresolve]
  simp only
  rw [hlisted, List.mergeSort_of_pairwise (by decide)]
  decide

/-- Discovery is exact there. -/
theorem discover_exact_sampleTree : sampleTree.IsTree ∧
    discover sampleTree "w" = ["w/B.stories.svelte", "w/a/C.stories.svelte",
      "w/also/C.stories.svelte"] ∧
    (discover sampleTree "w").Pairwise (fun a b => List.Lex (· < ·) (components a) (components b)) ∧
    ∀ path, path ∈ discover sampleTree "w" ↔ ∃ names, path = under "w" names ∧
    IsStoryBelow sampleTree "w" names :=
  ⟨isTree_sampleTree, discover_sampleTree, (discover_exact sampleTree "w" isTree_sampleTree).2⟩

end SvelteStories.Files
