import SvelteStories.Files.Tree
import SvelteStories.Proofs.Outcome

/-!
# Following paths

A path leads as far as its start leads, and from there as far as its rest.  So the path of an entry
of a directory leads where the name of the entry leads from the place of the directory, with the
links that the path of the directory leaves.

## Key results

- `follow_append`: a path that is followed in two parts
- `at?_of_follow`: what is found is in the tree
- `components_join`, `resolve_under`: paths that names are joined to
-/

namespace SvelteStories.Files

variable {root entry : Entry} {location : Location} {name path : String} {names rest : List String}
  {links : Nat} {place : Place} {entries : List (String × Entry)}

/-! ## Locations -/

/-- What is at a location is found in the directory around it. -/
theorem Entry.at?_cons (root : Entry) (name : String) (location : Location) :
    root.at? (name :: location) = (root.at? location).bind (·.child? name) := by
  rw [Entry.at?, List.reverse_cons, List.foldlM_append, ← Entry.at?]
  cases root.at? location <;> simp

/-- The location of an entry of a directory. -/
theorem Entry.at?_cons_of_directory (h : root.at? location = some (.directory entries))
    (name : String) :
    root.at? (name :: location) = entries.lookup name := by
  rw [Entry.at?_cons, h]
  rfl

/-! ## Following a path in two parts -/

/-- A path leads as far as its start leads, and from there as far as its rest. -/
theorem follow_append (root : Entry) (links : Nat) (location : Location)
    (names rest : List String) :
    follow root links location (names ++ rest) =
      (follow root links location names).bind fun place =>
        follow root place.links place.location rest := by
  fun_induction follow root links location names with
  | case1 links location entry hat => rfl
  | case2 links location hnone => cases rest <;> simp [follow, hnone, Except.bind]
  | case3 links location name names hnone => simp [follow, hnone, Except.bind]
  -- a dot and two dots lead on in the directory
  | case4 links location name names entries hat hdot ih => simpa [follow, hat, hdot] using ih
  | case5 links location name names entries hat hdot hdots ih =>
    simpa [follow, hat, hdot, hdots] using ih
  -- what is missing, or leads through too many links or out of the tree, ends both paths
  | case6 links location name names entries hat hdot hdots hlookup =>
    simp [follow, hat, hdot, hdots, hlookup, Except.bind]
  | case7 location name names entries hat hdot hdots target hlookup =>
    simp [follow, hat, hdot, hdots, hlookup, Except.bind]
  | case8 location name names entries hat hdot hdots target hlookup links habsolute =>
    simp [follow, hat, hdot, hdots, hlookup, habsolute, Except.bind]
  -- the target of a link is put in front of what is left
  | case9 location name names entries hat hdot hdots target hlookup links habsolute ih =>
    rw [List.append_assoc] at ih
    simpa [follow, hat, hdot, hdots, hlookup, habsolute] using ih
  | case10 links location name names entries hat hdot hdots entry hlink hlookup ih =>
    simpa [follow, hat, hdot, hdots, hlookup, hlink] using ih
  | case11 links location name names entry hdirectory hat => simp [follow, hat, Except.bind]

/-- If a path leads somewhere, so does its start, and its rest leads there from where the start
    leads. -/
theorem exists_follow_of_append (h : follow root links location (names ++ rest) = .ok place) :
    ∃ mid, follow root links location names = .ok mid ∧
      follow root mid.links mid.location rest = .ok place := by
  rw [follow_append] at h
  exact exists_of_bind_eq_ok h

/-- What a path leads to is in the tree, and the path leads through no more links than it may. -/
theorem at?_of_follow (h : follow root links location names = .ok place) :
    root.at? place.location = some place.entry ∧ place.links ≤ links := by
  fun_induction follow root links location names
  case case1 hat =>
    cases h
    exact ⟨hat, Nat.le_refl _⟩
  case case4 ih | case5 ih | case10 ih => exact ih h
  case case9 ih =>
    obtain ⟨hat, hle⟩ := ih h
    exact ⟨hat, Nat.le_succ_of_le hle⟩
  all_goals cases h

theorem follow_nil (h : root.at? location = some entry) :
    follow root links location [] = .ok ⟨location, entry, links⟩ := by
  rw [follow, h]

/-- Only from a directory does a path lead on. -/
theorem exists_directory_of_follow (h : follow root links location (name :: names) = .ok place) :
    ∃ entries, root.at? location = some (.directory entries) := by
  rw [follow] at h
  split at h
  · cases h
  · rename_i entries hat
    exact ⟨entries, hat⟩
  · cases h

/-- A dot in front of the rest of a path leads nowhere. -/
theorem follow_dot (root : Entry) (links : Nat) (location : Location) (name : String)
    (rest : List String) :
    follow root links location ("." :: name :: rest) =
      follow root links location (name :: rest) := by
  rw [follow]
  split
  · rename_i hnone
    rw [follow, hnone]
  · rfl
  · rename_i entry hdirectory hat
    rw [follow, hat]
    cases entry <;> first | rfl | exact absurd rfl (hdirectory _)

/-! ## Names and paths -/

/-- Whether an entry of a directory can have the name. -/
def IsName (name : String) : Prop :=
  name ∉ ["", ".", ".."] ∧ '/' ∉ name.toList ∧ '\x00' ∉ name.toList

instance : DecidablePred IsName := fun _ => inferInstanceAs (Decidable (_ ∧ _ ∧ _))

/-- No entry of a directory has a name that leads elsewhere. -/
theorem IsName.ne_dots (hname : IsName name) : name ≠ "." ∧ name ≠ ".." := by
  constructor <;> exact fun h => hname.1 (by simp [h])

/-- The parts of a path are what stands between its slashes. -/
theorem parts_eq_splitOn (cs : List Char) : parts cs = cs.splitOn '/' := by
  induction cs with
  | nil => rfl
  | cons c cs ih =>
    rw [List.splitOn_cons_eq_if_modifyHead, ← ih]
    by_cases hc : c = '/'
    · subst hc
      rfl
    · obtain ⟨first, rest, hparts⟩ := List.exists_cons_of_ne_nil (ih ▸ List.splitOn_ne_nil '/' cs)
      rw [if_neg (by simpa using hc), parts, hparts]
      · rfl
      · exact hc

/-- The components of a path, without the one that a slash at its end counts as. -/
def trunk (path : String) : List String :=
  ((parts path.toList).map String.ofList).filter (· != "")

/-- The components of a path are its trunk, with a dot behind it if a slash or a dot ends the
    path. -/
theorem components_eq (path : String) : components path = trunk path ∨
    components path = trunk path ++ ["."] := by
  rw [components]
  split
  · exact .inr rfl
  · exact .inl (List.append_nil _)

/-- A name behind a slash is the last component. -/
theorem components_of_toList {front : List Char} (hname : IsName name)
    (hpath : path.toList = front ++ '/' :: name.toList) :
    components path = ((parts front).map String.ofList).filter (· != "") ++ [name] ∧
      trunk path = ((parts front).map String.ofList).filter (· != "") ++ [name] := by
  obtain ⟨hspecial, hslash, -⟩ := hname
  have hne : name ≠ "" := fun h => hspecial (by simp [h])
  -- the slash in front of the name ends the part before it
  have hparts : (parts path.toList).map String.ofList =
      (parts front).map String.ofList ++ [name] := by
    rw [hpath, parts_eq_splitOn, List.splitOn_append_cons_self, List.splitOn_eq_singleton hslash,
      ← parts_eq_splitOn, List.map_append, List.map_singleton, String.ofList_toList]
  -- the path does not end with a slash, as the name is not empty
  have hlast : ((parts path.toList).map String.ofList).getLast? ≠ some "" := by
    rw [hparts, List.getLast?_concat]
    exact fun h => hne (Option.some.inj h)
  have htrunk : trunk path = ((parts front).map String.ofList).filter (· != "") ++ [name] := by
    rw [trunk, hparts, List.filter_append, List.filter_cons_of_pos (by simpa using hne),
      List.filter_nil]
  refine ⟨?_, htrunk⟩
  rw [← htrunk, components, if_neg, List.append_nil, trunk]
  simp only [Bool.and_eq_true, beq_iff_eq, not_and]
  exact fun h => absurd h hlast

/-- The path of an entry is a slash and its name behind the path of its directory, of which a slash
    at the end is left out. -/
theorem exists_toList_join (hpath : path ≠ "") (name : String) : ∃ front : List Char,
    (join path name).toList = front ++ '/' :: name.toList ∧
      trunk path = ((parts front).map String.ofList).filter (· != "") ∧
      path.toList.head? = front.head?.or (some '/') ∧ ('\x00' ∈ front ↔ '\x00' ∈ path.toList) := by
  have hempty : path.isEmpty = false := by rw [← Bool.not_eq_true, String.isEmpty_iff]; exact hpath
  rw [join, hempty, Bool.false_or]
  -- a slash at the end of the path is the one in front of the name
  by_cases hslash : path.toList.getLast? = some '/'
  · obtain ⟨front, hfront⟩ := List.getLast?_eq_some_iff.mp hslash
    refine ⟨front, ?_, ?_, ?_, ?_⟩
    · rw [if_pos (beq_iff_eq.mpr hslash), String.toList_append, hfront, List.append_assoc]
      rfl
    · rw [trunk, hfront, parts_eq_splitOn, List.splitOn_append_cons_self, ← parts_eq_splitOn,
        List.map_append, List.filter_append]
      exact List.append_nil _
    · rw [hfront, List.head?_append]
      rfl
    · rw [hfront, List.mem_append]
      simp
  · refine ⟨path.toList, ?_, rfl, ?_, Iff.rfl⟩
    · rw [if_neg (fun h => hslash (beq_iff_eq.mp h)), String.toList_append, String.toList_append,
        List.append_assoc]
      rfl
    · cases hchars : path.toList with
      | nil => exact absurd (String.toList_eq_nil_iff.mp hchars) hpath
      | cons c cs => rfl

/-- The path of an entry has the components of the path of its directory, and the name. -/
theorem components_join (hname : IsName name) (hpath : path ≠ "") :
    components (join path name) = trunk path ++ [name] ∧
      trunk (join path name) = trunk path ++ [name] := by
  obtain ⟨front, hjoin, htrunk, -⟩ := exists_toList_join hpath name
  rw [htrunk]
  exact components_of_toList hname hjoin

/-- The path of an entry is not empty. -/
theorem join_ne_empty (hpath : path ≠ "") (name : String) : join path name ≠ "" := by
  obtain ⟨front, hjoin, -⟩ := exists_toList_join hpath name
  intro h
  rw [h] at hjoin
  simp at hjoin

/-- A path leads to an entry of a directory from the place of the directory. -/
theorem resolve_join (root : Entry) (hname : IsName name) (hpath : path ≠ "") :
    resolve root (join path name) =
      (resolve root path).bind fun place => follow root place.links place.location [name] := by
  obtain ⟨front, hjoin, -, hhead, hnul⟩ := exists_toList_join hpath name
  -- the name has no null character and does not make the path absolute
  have hcontains : (join path name).contains '\x00' = path.contains '\x00' := by
    rw [String.contains_char_eq, String.contains_char_eq, decide_eq_decide, hjoin,
      List.mem_append, hnul]
    simp [hname.2.2]
  have habsolute : isAbsolute (join path name) = isAbsolute path := by
    rw [isAbsolute, isAbsolute, hhead, hjoin, List.head?_append]
    rfl
  have hempty : ∀ {p : String}, p ≠ "" → p.isEmpty = false := fun h => by
    rw [← Bool.not_eq_true, String.isEmpty_iff]
    exact h
  rw [resolve, resolve, hcontains, habsolute, hempty hpath, hempty (join_ne_empty hpath name),
    (components_join hname hpath).1]
  split
  · rfl
  · split
    · rfl
    · rw [← follow_append]
      rcases components_eq path with h | h
      · rw [h]
      · -- a slash at the end of the path is passed over in front of the name
        rw [h, List.append_assoc, follow_append, follow_append]
        exact congrArg _ (funext fun place => (follow_dot root _ _ name []).symm)

/-- What a path resolves to is in the tree. -/
theorem at?_of_resolve (h : resolve root path = .ok place) :
    root.at? place.location = some place.entry := by
  rw [resolve] at h
  split at h
  · cases h
  · split at h
    · cases h
    · exact (at?_of_follow h).1

/-- The path that names lead along from a base. -/
def under (base : String) (names : List String) : String :=
  names.foldl join base

/-- A path leads along names from the place of its base. -/
theorem resolve_under (root : Entry) {base : String} (hbase : base ≠ "")
    (hnames : ∀ name ∈ names, IsName name) :
    resolve root (under base names) =
      (resolve root base).bind fun place => follow root place.links place.location names := by
  induction names generalizing base with
  | nil =>
    rw [under, List.foldl_nil]
    cases hresolve : resolve root base with
    | error failure => rfl
    | ok place => exact (follow_nil (at?_of_resolve hresolve)).symm
  | cons name names ih =>
    obtain ⟨hname, hnames⟩ := List.forall_mem_cons.mp hnames
    rw [under, List.foldl_cons, ← under, ih (join_ne_empty hbase name) hnames,
      resolve_join root hname hbase]
    -- the first name and the others, one path after the other
    cases resolve root base with
    | error failure => rfl
    | ok place => exact (follow_append root place.links place.location [name] names).symm

end SvelteStories.Files
