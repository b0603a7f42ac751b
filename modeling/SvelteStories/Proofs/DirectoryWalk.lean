import Mathlib.Data.List.Dedup
import Mathlib.Data.List.Infix
import Mathlib.Data.List.Perm.Subperm
import SvelteStories.Files.Discovery
import SvelteStories.Proofs.Resolution

/-!
# Walks through a tree of files

A walk goes from a directory into the directories in it, real ones and those that links lead to.  It
does not go into a directory whose name is left out, nor along a link to a directory that it is
already inside.  The stories files that are listed below a directory are those that such a walk
comes by.

A walk ends, although links may lead anywhere: each of the links on its way leads to another
directory, and between two links it goes down.

## Key results

- `mem_storiesAmong_iff`: what is listed
- `exists_walks_iff`: where a walk goes, said by the paths on its way
- `Walks.length_lt`: how long a walk can be
-/

namespace SvelteStories.Files

variable {root entry : Entry} {location : Location} {name : String} {names : List String}
  {place next last : WalkPlace} {entries inside : List (String × Entry)} {found : Place}

/-! ## Trees -/

/-- The names in every directory are names that entries can have, and no two of them are the
    same. -/
inductive Entry.IsTree : Entry → Prop
  | file (bytes : ByteArray) : IsTree (.file bytes)
  | link (target : String) : IsTree (.link target)
  | directory {entries : List (String × Entry)} (nodup : (entries.map Prod.fst).Nodup)
      (names : ∀ name ∈ entries.map Prod.fst, IsName name)
      (below : ∀ entry ∈ entries.map Prod.snd, IsTree entry) : IsTree (.directory entries)

/-- In a directory of a tree the names are names, each is that of one entry, and the entries are
    trees. -/
theorem Entry.IsTree.of_directory (h : (Entry.directory entries).IsTree) :
    (entries.map Prod.fst).Nodup ∧ (∀ name ∈ entries.map Prod.fst, IsName name) ∧
      ∀ entry ∈ entries.map Prod.snd, entry.IsTree := by
  cases h with
  | directory nodup names below => exact ⟨nodup, names, below⟩

/-- An entry that is looked up is one of the directory. -/
theorem mem_of_lookup (h : entries.lookup name = some entry) : (name, entry) ∈ entries := by
  obtain ⟨front, back, rfl, -⟩ := List.lookup_eq_some_iff.mp h
  exact List.mem_append_right _ List.mem_cons_self

/-- Every entry is found under its name, where no two have the same. -/
theorem lookup_of_mem (hnodup : (entries.map Prod.fst).Nodup) (h : (name, entry) ∈ entries) :
    entries.lookup name = some entry := by
  obtain ⟨front, back, rfl⟩ := List.append_of_mem h
  refine List.lookup_eq_some_iff.mpr ⟨front, back, rfl, fun other hother => ?_⟩
  rw [List.map_append, List.nodup_append] at hnodup
  exact bne_iff_ne.mpr fun heq =>
    hnodup.2.2 other.1 (List.mem_map_of_mem hother) name (by simp) heq.symm

/-- What is at a location of a tree is a tree. -/
theorem Entry.IsTree.at? (htree : root.IsTree) (h : root.at? location = some entry) :
    entry.IsTree := by
  induction location generalizing entry with
  | nil =>
    obtain rfl := Option.some.inj h
    exact htree
  | cons name location ih =>
    rw [Entry.at?_cons, Option.bind_eq_some_iff] at h
    obtain ⟨around, hat, hchild⟩ := h
    cases around with
    -- only a directory has entries
    | file | link => cases hchild
    | directory entries =>
      exact (ih hat).of_directory.2.2 entry (List.mem_map_of_mem (f := Prod.snd)
        (mem_of_lookup hchild))

/-! ## One step of a walk -/

/-- Whether an entry is a link. -/
def Entry.isLink : Entry → Bool
  | link _ => true
  | _ => false

/-- A walk goes on from a place into the directory with the given name. -/
structure Enters (root : Entry) (place : WalkPlace) (name : String) (next : WalkPlace) : Prop where
  kept : isIgnoredName name = false
  leads : ∃ found entries, follow root place.links place.location [name] = .ok found ∧
    found.entry = .directory entries ∧ next = place.below found.location found.links
  outside : (root.at? (name :: place.location)).any Entry.isLink = true →
    place.isInside next.location = false

/-- The name leads from a place to a stories file. -/
structure FindsStory (root : Entry) (place : WalkPlace) (name : String) : Prop where
  named : isStoriesName name = true
  leads : ∃ found bytes, follow root place.links place.location [name] = .ok found ∧
    found.entry = .file bytes

/-- The name of an entry leads to the entry, and that of a link to what the link leads to. -/
theorem follow_name (links : Nat) (hplace : root.at? location = some (.directory entries))
    (hdot : name ≠ ".") (hdots : name ≠ "..") (hlookup : entries.lookup name = some entry) :
    ((∀ target, entry ≠ .link target) → follow root links location [name] =
      .ok ⟨name :: location, entry, links⟩) ∧
      ((∃ target, entry = .link target) →
        ∀ found, follow root links location [name] = .ok found → found.links < links) := by
  rw [← beq_eq_false_iff_ne] at hdot hdots
  have hat : root.at? (name :: location) = some entry := by
    rw [Entry.at?_cons_of_directory hplace, hlookup]
  constructor
  · -- an entry that is no link is where its name leads
    intro hlink
    rw [follow, hplace]
    simp only [hdot, hdots, hlookup, Bool.false_eq_true, if_false]
    cases entry with
    | link target => exact absurd rfl (hlink target)
    | file | directory => exact follow_nil hat
  · rintro ⟨target, rfl⟩ found hfound
    rw [follow, hplace] at hfound
    simp only [hdot, hdots, hlookup, Bool.false_eq_true, if_false] at hfound
    -- a link uses up one of the links that may be followed
    cases links with
    | zero => cases hfound
    | succ links =>
      simp only at hfound
      split at hfound
      · cases hfound
      · exact Nat.lt_succ_of_le (at?_of_follow hfound).2

/-- Only names that are in a directory lead on from it, the dots apart. -/
theorem exists_lookup_of_follow {links : Nat}
    (hplace : root.at? location = some (.directory entries))
    (hdot : name ≠ ".") (hdots : name ≠ "..") (h : follow root links location [name] = .ok found) :
    ∃ entry, entries.lookup name = some entry := by
  rw [follow, hplace] at h
  simp only [beq_eq_false_iff_ne.mpr hdot, beq_eq_false_iff_ne.mpr hdots,
    Bool.false_eq_true, if_false] at h
  cases hlookup : entries.lookup name with
  | none =>
    rw [hlookup] at h
    cases h
  | some entry => exact ⟨entry, rfl⟩

/-- A walk goes on along names of entries alone. -/
theorem Enters.ne_dots (henters : Enters root place name next) : name ≠ "." ∧ name ≠ ".." := by
  constructor <;> exact fun h => absurd henters.kept (by rw [h]; decide)

/-- A walk goes on into an entry of the directory. -/
theorem Enters.exists_lookup (henters : Enters root place name next)
    (hplace : root.at? place.location = some (.directory entries)) :
    ∃ entry, entries.lookup name = some entry := by
  obtain ⟨found, -, hfollow, -⟩ := henters.leads
  exact exists_lookup_of_follow hplace henters.ne_dots.1 henters.ne_dots.2 hfollow

/-- A stories file is found at an entry of the directory. -/
theorem FindsStory.exists_lookup (hfinds : FindsStory root place name)
    (hplace : root.at? place.location = some (.directory entries)) :
    ∃ entry, entries.lookup name = some entry := by
  obtain ⟨found, -, hfollow, -⟩ := hfinds.leads
  refine exists_lookup_of_follow hplace ?_ ?_ hfollow <;>
    exact fun h => absurd hfinds.named (by rw [h]; decide)

/-! ## What is listed -/

/-- What is listed among some entries is listed at one of them. -/
theorem mem_storiesAmong : names ∈ storiesAmong root place entries ↔
    ∃ name entry, (name, entry) ∈ entries ∧ names ∈ storiesAt root place name entry := by
  induction entries with
  | nil => simp [storiesAmong]
  | cons pair entries ih =>
    obtain ⟨name, entry⟩ := pair
    rw [storiesAmong, List.mem_append, ih]
    constructor
    · rintro (h | ⟨other, entry', hmem, h⟩)
      · exact ⟨name, entry, List.mem_cons_self, h⟩
      · exact ⟨other, entry', List.mem_cons_of_mem _ hmem, h⟩
    · rintro ⟨other, entry', hmem, h⟩
      rcases List.mem_cons.mp hmem with heq | hmem
      · cases heq
        exact .inl h
      · exact .inr ⟨other, entry', hmem, h⟩

/-- What is listed at an entry goes by what its name leads to; it matters whether it is a link only
    where the walk is already inside that directory. -/
theorem storiesAt_eq (hplace : root.at? place.location = some (.directory entries))
    (hname : IsName name)
    (hlookup : entries.lookup name = some entry) : storiesAt root place name entry =
      match follow root place.links place.location [name] with
      | .error _ => []
      | .ok found =>
        match found.entry with
        | .file _ => if isStoriesName name then [[name]] else []
        | .link _ => []
        | .directory inside =>
          if isIgnoredName name || (entry.isLink && place.isInside found.location) then []
          else (storiesAmong root (place.below found.location found.links) inside).map
              (name :: ·) := by
  obtain ⟨hentry, hlink⟩ := follow_name place.links hplace hname.ne_dots.1 hname.ne_dots.2 hlookup
  cases entry with
  | file bytes => rw [hentry (by simp), storiesAt]
  -- an entry that is no link leads further down, never back
  | directory entries =>
    rw [hentry (by simp), storiesAt]
    simp only [Entry.isLink, Bool.false_and, Bool.or_false]
  | link target =>
    rw [storiesAt]
    cases hfollow : follow root place.links place.location [name] with
    | error failure => rfl
    | ok found =>
      -- fewer links are left, so that the walk through the link comes to an end
      have hlt := hlink ⟨target, rfl⟩ found hfollow
      simp only
      cases found.entry with
      | file | link => rfl
      | directory inside => simp only [hlt, if_true, Entry.isLink, Bool.true_and]

/-- A stories file at an entry is the entry itself, or one that is listed below the directory that
    it leads to. -/
theorem mem_storiesAt (hplace : root.at? place.location = some (.directory entries))
    (hname : IsName name)
    (hlookup : entries.lookup name = some entry) : names ∈ storiesAt root place name entry ↔
      (names = [name] ∧ FindsStory root place name) ∨
        ∃ next inside rest, Enters root place name next ∧
          root.at? next.location = some (.directory inside) ∧
          names = name :: rest ∧ rest ∈ storiesAmong root next inside := by
  rw [storiesAt_eq hplace hname hlookup]
  -- the entry at the location of the name is the one that is looked at
  have hlink : (root.at? (name :: place.location)).any Entry.isLink = entry.isLink := by
    rw [Entry.at?_cons_of_directory hplace, hlookup, Option.any_some]
  constructor
  · intro h
    split at h
    · cases h
    · rename_i found hfollow
      split at h
      · rename_i bytes hbytes
        split at h
        · rename_i hnamed
          exact .inl ⟨List.mem_singleton.mp h, hnamed, found, bytes, hfollow, hbytes⟩
        · cases h
      · cases h
      · rename_i inside hinside
        split at h
        · cases h
        · -- the directory is searched, as its name is not left out and it is not one around the
          -- walk
          rename_i hkept
          rw [Bool.or_eq_true, Bool.and_eq_true, not_or, not_and] at hkept
          obtain ⟨rest, hrest, rfl⟩ := List.mem_map.mp h
          refine .inr ⟨_, inside, rest, ⟨Bool.eq_false_iff.mpr hkept.1,
            ⟨found, inside, hfollow, hinside, rfl⟩, ?_⟩, ?_, rfl, hrest⟩
          · rw [hlink]
            exact fun hentry => Bool.eq_false_iff.mpr (hkept.2 hentry)
          · exact hinside ▸ (at?_of_follow hfollow).1
  · rintro (⟨rfl, hnamed, found, bytes, hfollow, hbytes⟩ | ⟨next, inside, rest, henters,
      hinside, rfl, hrest⟩)
    · rw [hfollow]
      simp only [hbytes, hnamed, if_true, List.mem_singleton]
    · obtain ⟨hkept, ⟨found, entries', hfollow, hfound, rfl⟩, houtside⟩ := henters
      obtain rfl : entries' = inside := by
        have hat := (at?_of_follow hfollow).1
        rw [hfound] at hat
        exact Entry.directory.inj (Option.some.inj (hat.symm.trans hinside))
      rw [hlink] at houtside
      -- a step into the directory is one that the listing takes as well
      have hopen : ¬ (isIgnoredName name || (entry.isLink && place.isInside found.location)) =
          true := by
        rw [hkept, Bool.false_or, Bool.and_eq_true, not_and]
        exact fun hentry => Bool.eq_false_iff.mp (houtside hentry)
      rw [hfollow]
      simp only [hfound, hopen, Bool.false_eq_true, if_false]
      exact List.mem_map_of_mem hrest

/-! ## Walks -/

/-- A walk goes along names from one place to another. -/
def Walks (root : Entry) : WalkPlace → List String → WalkPlace → Prop
  | place, [], last => last = place
  | place, name :: names, last => ∃ next, Enters root place name next ∧ Walks root next names last

/-- Below a directory, what its entries lead to is listed. -/
theorem mem_storiesAmong_of_directory (htree : root.IsTree)
    (hplace : root.at? place.location = some (.directory entries)) :
    names ∈ storiesAmong root place entries ↔
      (∃ name, names = [name] ∧ FindsStory root place name) ∨
        ∃ name next inside rest, Enters root place name next ∧
          root.at? next.location = some (.directory inside) ∧ names = name :: rest ∧
          rest ∈ storiesAmong root next inside := by
  obtain ⟨hnodup, hnames, -⟩ := (htree.at? hplace).of_directory
  have hname : ∀ {name entry}, (name, entry) ∈ entries → IsName name := fun h =>
    hnames _ (List.mem_map_of_mem (f := Prod.fst) h)
  rw [mem_storiesAmong]
  constructor
  · rintro ⟨name, entry, hmem, h⟩
    rcases (mem_storiesAt hplace (hname hmem) (lookup_of_mem hnodup hmem)).mp h with h | ⟨next,
      inside, rest, h⟩
    · exact .inl ⟨name, h⟩
    · exact .inr ⟨name, next, inside, rest, h⟩
  · rintro (⟨name, h⟩ | ⟨name, next, inside, rest, h⟩)
    · -- the name is that of an entry, and what is found is listed there
      obtain ⟨entry, hlookup⟩ := h.2.exists_lookup hplace
      have hmem := mem_of_lookup hlookup
      exact ⟨name, entry, hmem, (mem_storiesAt hplace (hname hmem) hlookup).mpr (.inl h)⟩
    · obtain ⟨entry, hlookup⟩ := h.1.exists_lookup hplace
      have hmem := mem_of_lookup hlookup
      exact ⟨name, entry, hmem,
        (mem_storiesAt hplace (hname hmem) hlookup).mpr (.inr ⟨next, inside, rest, h⟩)⟩

/-- A walk goes on into directories. -/
theorem Enters.exists_directory (henters : Enters root place name next) :
    ∃ inside, root.at? next.location = some (.directory inside) := by
  obtain ⟨found, inside, hfollow, hinside, rfl⟩ := henters.leads
  exact ⟨inside, hinside ▸ (at?_of_follow hfollow).1⟩

/-- An entry of a tree has the name of one. -/
theorem isName_of_lookup (htree : root.IsTree)
    (hplace : root.at? location = some (.directory entries))
    (hlookup : entries.lookup name = some entry) : IsName name :=
  (htree.at? hplace).of_directory.2.1 name (List.mem_map.mpr ⟨_, mem_of_lookup hlookup, rfl⟩)

/-- A walk goes along names of entries. -/
theorem Walks.isName (htree : root.IsTree)
    (hplace : root.at? place.location = some (.directory entries))
    (hwalks : Walks root place names last) : ∀ name ∈ names, IsName name := by
  induction names generalizing place entries with
  | nil => nofun
  | cons name names ih =>
    obtain ⟨next, henters, hwalks⟩ := hwalks
    obtain ⟨entry, hlookup⟩ := henters.exists_lookup hplace
    obtain ⟨inside, hinside⟩ := henters.exists_directory
    exact List.forall_mem_cons.mpr ⟨isName_of_lookup htree hplace hlookup, ih hinside hwalks⟩

/-- The stories files that are listed below a directory are those that a walk from there comes
    by. -/
theorem mem_storiesAmong_iff (htree : root.IsTree)
    (hplace : root.at? place.location = some (.directory entries)) :
    names ∈ storiesAmong root place entries ↔
      ∃ way name last, names = way ++ [name] ∧ Walks root place way last ∧
        FindsStory root last name := by
  induction names generalizing place entries with
  | nil =>
    rw [mem_storiesAmong_of_directory htree hplace]
    simp
  | cons first names ih =>
    rw [mem_storiesAmong_of_directory htree hplace]
    constructor
    · -- the first name is that of the file, or the first step of the walk
      rintro (⟨name, heq, hfinds⟩ | ⟨name, next, inside, rest, henters, hinside, heq, hrest⟩)
      · exact ⟨[], name, place, heq, rfl, hfinds⟩
      · obtain ⟨rfl, rfl⟩ := List.cons.inj heq
        obtain ⟨way, name, last, rfl, hwalks, hfinds⟩ := (ih hinside).mp hrest
        exact ⟨first :: way, name, last, rfl, ⟨next, henters, hwalks⟩, hfinds⟩
    · rintro ⟨way, name, last, heq, hwalks, hfinds⟩
      -- the file is in this directory, or the walk goes on first
      cases way with
      | nil =>
        obtain rfl := hwalks
        exact .inl ⟨name, heq, hfinds⟩
      | cons other way =>
        obtain ⟨rfl, rfl⟩ := List.cons.inj heq
        obtain ⟨next, henters, hwalks⟩ := hwalks
        obtain ⟨inside, hinside⟩ := henters.exists_directory
        exact .inr ⟨first, next, inside, _, henters, hinside, rfl,
          (ih hinside).mpr ⟨way, name, last, rfl, hwalks, hfinds⟩⟩

/-! ## Walks by the paths on their way -/

/-- The step to a name behind a way is not one along a link to a directory that the walk is inside
    by then. -/
def StepsOutside (root : Entry) (place : WalkPlace) (before : List String) (name : String) : Prop :=
  ∀ here there, follow root place.links place.location before = .ok here →
    follow root place.links place.location (before ++ [name]) = .ok there →
    (root.at? (name :: here.location)).any Entry.isLink = true →
      there.location ∉ place.around ∧ ∀ earlier, earlier <+: before → ∀ inside,
        follow root place.links place.location earlier = .ok inside →
          there.location ≠ inside.location

/-- What holds of the paths on the way when a walk goes along names. -/
structure Passes (root : Entry) (place : WalkPlace) (names : List String) : Prop where
  leads : ∃ found entries,
    follow root place.links place.location names = .ok found ∧ found.entry = .directory entries
  kept : ∀ name ∈ names, isIgnoredName name = false
  outside : ∀ before name, before ++ [name] <+: names → StepsOutside root place before name

/-- From the directory that a walk goes on into, names lead where they lead behind its name. -/
theorem Enters.follow_cons (henters : Enters root place name next) (names : List String) :
    follow root place.links place.location (name :: names) =
      follow root next.links next.location names := by
  obtain ⟨found, -, hfollow, -, rfl⟩ := henters.leads
  rw [← List.singleton_append, follow_append, hfollow]
  rfl

/-- A step puts the directory that it leaves around the one that it enters. -/
theorem Enters.around_eq (henters : Enters root place name next) :
    next.around = place.location :: place.around := by
  obtain ⟨found, -, -, -, rfl⟩ := henters.leads
  rfl

/-- A walk is where its names lead. -/
theorem Walks.follow_eq (hplace : root.at? place.location = some (.directory entries))
    (hwalks : Walks root place names last) : ∃ inside,
      follow root place.links place.location names = .ok ⟨last.location, .directory inside,
        last.links⟩ := by
  induction names generalizing place entries with
  | nil =>
    obtain rfl := hwalks
    exact ⟨entries, follow_nil hplace⟩
  | cons name names ih =>
    obtain ⟨next, henters, hwalks⟩ := hwalks
    obtain ⟨inside, hinside⟩ := henters.exists_directory
    -- the step follows its name, and the rest of the walk follows the others
    rw [henters.follow_cons]
    exact ih hinside hwalks

/-- A walk is not inside a directory if that is neither where it is nor around it. -/
theorem isInside_eq_false_iff : place.isInside location = false ↔
    location ≠ place.location ∧ location ∉ place.around := by
  rw [WalkPlace.isInside, ← Bool.not_eq_true, List.contains_iff_mem, List.mem_cons, not_or]

theorem passes_nil (hplace : root.at? place.location = some (.directory entries)) :
    Passes root place [] := by
  refine ⟨⟨_, entries, follow_nil hplace, rfl⟩, by simp, fun before name hprefix => ?_⟩
  simp at hprefix

/-- The first step is the one of the walk itself. -/
theorem stepsOutside_nil (hplace : root.at? place.location = some (.directory entries))
    (hfound : follow root place.links place.location [name] = .ok found) :
    StepsOutside root place [] name ↔
      ((root.at? (name :: place.location)).any Entry.isLink = true →
        place.isInside found.location = false) := by
  have hstart : follow root place.links place.location [] = .ok ⟨_, _, place.links⟩ :=
    follow_nil hplace
  rw [isInside_eq_false_iff]
  constructor
  · intro h hlink
    obtain ⟨haround, hne⟩ := h _ found hstart hfound hlink
    exact ⟨hne [] (List.prefix_refl _) _ hstart, haround⟩
  · intro h here there hhere hthere hlink
    -- the only place before the step is the start of the walk
    obtain rfl := Except.ok.inj (hstart.symm.trans hhere)
    obtain rfl := Except.ok.inj (hfound.symm.trans hthere)
    obtain ⟨hne, haround⟩ := h hlink
    refine ⟨haround, fun earlier hearlier inside hinside => ?_⟩
    obtain rfl := List.prefix_nil.mp hearlier
    obtain rfl := Except.ok.inj (hstart.symm.trans hinside)
    exact hne

/-- The ways that start a longer one are the empty one, and those that start with its first name. -/
theorem forall_prefix_cons_iff {p : List String → Prop} :
    (∀ way, way <+: name :: names → p way) ↔ p [] ∧ ∀ way, way <+: names → p (name :: way) := by
  constructor
  · exact fun h => ⟨h [] List.nil_prefix, fun way hway =>
      h _ (List.cons_prefix_cons.mpr ⟨rfl, hway⟩)⟩
  · rintro ⟨hnil, hcons⟩ (_ | ⟨first, way⟩) hway
    · exact hnil
    · obtain ⟨rfl, hrest⟩ := List.cons_prefix_cons.mp hway
      exact hcons way hrest

/-- The other steps are those of the walk from the directory that it goes on into. -/
theorem Enters.stepsOutside_cons (hplace : root.at? place.location = some (.directory entries))
    (henters : Enters root place name next) {before : List String} {other : String} :
    StepsOutside root place (name :: before) other ↔ StepsOutside root next before other := by
  have hstart : follow root place.links place.location [] = .ok ⟨_, _, place.links⟩ :=
    follow_nil hplace
  simp only [StepsOutside, List.cons_append, henters.follow_cons, henters.around_eq,
    forall_prefix_cons_iff, hstart, Except.ok.injEq, forall_eq', List.mem_cons, not_or,
    and_assoc, and_left_comm]

/-- A walk can go along names if it can go on into the directory with the first of them, and along
    the rest from there. -/
theorem passes_cons_iff (hplace : root.at? place.location = some (.directory entries)) :
    Passes root place (name :: names) ↔ ∃ next, Enters root place name next ∧
      Passes root next names := by
  constructor
  · rintro ⟨⟨found, inside, hfollow, hfound⟩, hkept, houtside⟩
    obtain ⟨hname, hkept⟩ := List.forall_mem_cons.mp hkept
    rw [← List.singleton_append] at hfollow
    obtain ⟨mid, hmid, hrest⟩ := exists_follow_of_append hfollow
    -- what lies on the way is a directory, and so is the end of it
    obtain ⟨entries', hentries⟩ : ∃ entries', mid.entry = .directory entries' := by
      cases names with
      | nil =>
        rw [follow_nil (at?_of_follow hmid).1] at hrest
        obtain rfl := Except.ok.inj hrest
        exact ⟨inside, hfound⟩
      | cons other names =>
        obtain ⟨entries', hat⟩ := exists_directory_of_follow hrest
        exact ⟨entries', Option.some.inj ((at?_of_follow hmid).1.symm.trans hat)⟩
    have henters : Enters root place name (place.below mid.location mid.links) :=
      ⟨hname, ⟨mid, entries', hmid, hentries, rfl⟩,
        (stepsOutside_nil hplace hmid).mp (houtside [] name (by simp))⟩
    -- the others are passed from the directory that was entered
    refine ⟨_, henters, ⟨found, inside, hrest, hfound⟩, hkept, fun before other hprefix => ?_⟩
    exact (henters.stepsOutside_cons hplace).mp
      (houtside (name :: before) other (List.cons_prefix_cons.mpr ⟨rfl, hprefix⟩))
  · rintro ⟨next, henters, ⟨found, inside, hfollow, hfound⟩, hkept, houtside⟩
    refine ⟨⟨found, inside, henters.follow_cons names ▸ hfollow, hfound⟩,
      List.forall_mem_cons.mpr ⟨henters.kept, hkept⟩, ?_⟩
    rintro (_ | ⟨first, before⟩) other hprefix
    · -- the first step is checked on its own, and the others as before
      obtain ⟨rfl, -⟩ := List.cons_prefix_cons.mp hprefix
      obtain ⟨mid, -, hmid, -, rfl⟩ := henters.leads
      exact (stepsOutside_nil hplace hmid).mpr henters.outside
    · obtain ⟨rfl, hrest⟩ := List.cons_prefix_cons.mp hprefix
      exact (henters.stepsOutside_cons hplace).mpr (houtside before other hrest)

/-- A walk can go along names if the paths on the way allow it. -/
theorem exists_walks_iff (hplace : root.at? place.location = some (.directory entries)) :
    (∃ last, Walks root place names last) ↔ Passes root place names := by
  induction names generalizing place entries with
  | nil => exact ⟨fun _ => passes_nil hplace, fun _ => ⟨place, rfl⟩⟩
  | cons name names ih =>
    -- the first step has to be allowed, and the way behind it
    rw [passes_cons_iff hplace]
    constructor
    · rintro ⟨last, next, henters, hwalks⟩
      obtain ⟨inside, hinside⟩ := henters.exists_directory
      exact ⟨next, henters, (ih hinside).mp ⟨last, hwalks⟩⟩
    · rintro ⟨next, henters, hpasses⟩
      obtain ⟨inside, hinside⟩ := henters.exists_directory
      obtain ⟨last, hwalks⟩ := (ih hinside).mpr hpasses
      exact ⟨last, next, henters, hwalks⟩

/-! ## The length of a walk -/

mutual

/-- The locations of the directories at or below an entry. -/
def Entry.directories (here : Location) : Entry → List Location
  | .directory entries => here :: directoriesAmong here entries
  | .file _ => []
  | .link _ => []

/-- The locations of the directories at or below the entries of a directory. -/
def directoriesAmong (here : Location) : List (String × Entry) → List Location
  | [] => []
  | (name, entry) :: rest => entry.directories (name :: here) ++ directoriesAmong here rest

end

/-- The directories below an entry are among those below its directory. -/
theorem mem_directoriesAmong {here : Location} (hmem : (name, entry) ∈ entries)
    (h : location ∈ entry.directories (name :: here)) :
    location ∈ directoriesAmong here entries := by
  induction entries with
  | nil => cases hmem
  | cons pair rest ih =>
    rw [directoriesAmong, List.mem_append]
    -- the entry is the first one, or among the others
    rcases List.mem_cons.mp hmem with rfl | hmem
    · exact .inl h
    · exact .inr (ih hmem)

/-- Every directory of a tree is among its directories. -/
theorem mem_directories (h : root.at? location = some (.directory entries)) :
    location ∈ root.directories [] := by
  -- from the root, a location is followed outermost name first
  suffices hway : ∀ (way : List String) (entry : Entry) (here : Location),
      way.foldlM (fun entry name => entry.child? name) entry = some (.directory entries) →
      way.reverse ++ here ∈ entry.directories here by
    simpa using hway location.reverse root [] h
  intro way
  induction way with
  | nil =>
    intro entry here h
    obtain rfl := Option.some.inj h
    rw [Entry.directories]
    exact List.mem_cons_self
  | cons name way ih =>
    intro entry here h
    rw [List.foldlM_cons] at h
    obtain ⟨child, hchild, h⟩ := Option.bind_eq_some_iff.mp h
    -- the child is a directory below this one
    have hmem := ih child (name :: here) h
    rw [List.reverse_cons, List.append_assoc, List.singleton_append]
    cases entry with
    | file | link => cases hchild
    | directory entries =>
      rw [Entry.directories]
      exact List.mem_cons_of_mem _ (mem_directoriesAmong (mem_of_lookup hchild) hmem)

/-- What is around a directory is a directory. -/
theorem exists_directory_of_suffix {inner : Location}
    (h : root.at? inner = some (.directory entries))
    (hsuffix : location <:+ inner) : ∃ inside, root.at? location = some (.directory inside) := by
  induction inner generalizing entries with
  | nil =>
    obtain rfl := List.suffix_nil.mp hsuffix
    exact ⟨entries, h⟩
  | cons name inner ih =>
    rcases List.suffix_cons_iff.mp hsuffix with rfl | hsuffix
    · exact ⟨entries, h⟩
    · rw [Entry.at?_cons, Option.bind_eq_some_iff] at h
      obtain ⟨around, hat, hchild⟩ := h
      cases around with
      -- a location inside a file or a link has no entry
      | file | link => cases hchild
      | directory inside => exact ih hat hsuffix

/-- The rests of a location are all different, as they differ in length. -/
theorem nodup_tails (location : Location) : location.tails.Nodup := by
  induction location with
  | nil => exact List.nodup_singleton []
  | cons name location ih =>
    rw [List.tails_cons, List.nodup_cons]
    exact ⟨fun h => absurd ((List.mem_tails _ _).mp h).length_le (by simp), ih⟩

/-- A location has as many directories around it as it has names. -/
theorem length_lt_of_directory (h : root.at? location = some (.directory entries)) :
    location.length < (root.directories []).length := by
  have hsubset : location.tails ⊆ root.directories [] := fun around haround => by
    obtain ⟨inside, hat⟩ := exists_directory_of_suffix h ((List.mem_tails _ _).mp haround)
    exact mem_directories hat
  have hle := (List.subperm_of_subset (nodup_tails location) hsubset).length_le
  rwa [List.length_tails] at hle

/-- The locations of the directories that a walk is inside, innermost first. -/
def WalkPlace.trail (place : WalkPlace) : List Location :=
  place.location :: place.around

/-- How far a walk may have come: where it went along a link it came into one more directory, and
    from there it can have gone down as far as it is below the root. -/
structure Bounded (root : Entry) (place : WalkPlace) : Prop where
  real : place.trail ⊆ root.directories []
  steps : place.trail.length ≤
    (place.trail.dedup.length - 1) * (root.directories []).length + place.location.length + 1

/-- A walk that starts at a directory has come into one directory. -/
theorem bounded_start (hplace : root.at? place.location = some (.directory entries))
    (haround : place.around = []) :
    Bounded root place := by
  constructor
  · rw [WalkPlace.trail, haround]
    exact List.cons_subset.mpr ⟨mem_directories hplace, List.nil_subset _⟩
  · rw [WalkPlace.trail, haround]
    simp

/-- A step puts the directory that it enters on the trail. -/
theorem Enters.trail_eq (henters : Enters root place name next) :
    next.trail = next.location :: place.trail := by
  rw [WalkPlace.trail, henters.around_eq, WalkPlace.trail]

/-- A step to an entry that is no link goes down. -/
theorem Enters.location_eq (henters : Enters root place name next)
    (hplace : root.at? place.location = some (.directory entries))
    (hlink : (root.at? (name :: place.location)).any Entry.isLink = false) :
    next.location = name :: place.location := by
  obtain ⟨entry, hlookup⟩ := henters.exists_lookup hplace
  rw [Entry.at?_cons_of_directory hplace, hlookup, Option.any_some] at hlink
  obtain ⟨found, -, hfollow, -, rfl⟩ := henters.leads
  obtain ⟨hentry, -⟩ := follow_name place.links hplace henters.ne_dots.1 henters.ne_dots.2 hlookup
  rw [hentry fun target h => by rw [h] at hlink; cases hlink] at hfollow
  obtain rfl := Except.ok.inj hfollow
  rfl

/-- A step along a link comes into one more directory, and any other step goes down. -/
theorem Enters.bounded (henters : Enters root place name next)
    (hplace : root.at? place.location = some (.directory entries)) (hbounded : Bounded root place) :
    Bounded root next := by
  obtain ⟨inside, hinside⟩ := henters.exists_directory
  refine ⟨henters.trail_eq ▸ List.cons_subset.mpr ⟨mem_directories hinside, hbounded.real⟩, ?_⟩
  have hsteps := hbounded.steps
  have hdepth := length_lt_of_directory hplace
  have hpos : 0 < place.trail.dedup.length := by
    rw [List.length_pos_iff, Ne, List.dedup_eq_nil, WalkPlace.trail]
    exact List.cons_ne_nil _ _
  rw [henters.trail_eq, List.length_cons]
  by_cases hnew : next.location ∈ place.trail
  · -- no link leads back into the trail
    have hlink : (root.at? (name :: place.location)).any Entry.isLink = false := by
      rw [← Bool.not_eq_true]
      intro hlink
      obtain ⟨hne, haround⟩ := isInside_eq_false_iff.mp (henters.outside hlink)
      exact (List.mem_cons.mp hnew).elim hne haround
    rw [List.dedup_cons_of_mem hnew, henters.location_eq hplace hlink, List.length_cons]
    omega
  · -- one more directory makes up for all that the walk can go down from the last one
    rw [List.dedup_cons_of_notMem hnew, List.length_cons, Nat.add_sub_cancel]
    obtain ⟨earlier, hearlier⟩ := Nat.exists_eq_add_of_lt hpos
    rw [hearlier] at hsteps ⊢
    simp only [Nat.zero_add, Nat.add_sub_cancel, Nat.add_mul, Nat.one_mul] at hsteps ⊢
    omega

/-- A walk goes on from bounded places to bounded places, and each name takes it into one more
    directory. -/
theorem Walks.bounded (hplace : root.at? place.location = some (.directory entries))
    (hbounded : Bounded root place) (hwalks : Walks root place names last) :
    Bounded root last ∧ last.trail.length = names.length + place.trail.length := by
  induction names generalizing place entries with
  | nil =>
    obtain rfl := hwalks
    exact ⟨hbounded, (Nat.zero_add _).symm⟩
  | cons name names ih =>
    obtain ⟨next, henters, hwalks⟩ := hwalks
    obtain ⟨inside, hinside⟩ := henters.exists_directory
    obtain ⟨hlast, hlength⟩ := ih hinside (henters.bounded hplace hbounded) hwalks
    refine ⟨hlast, ?_⟩
    rw [hlength, henters.trail_eq, List.length_cons, List.length_cons]
    omega

/-- A walk is shorter than the square of the number of directories, through however many links it
    may lead. -/
theorem Walks.length_lt (hplace : root.at? place.location = some (.directory entries))
    (haround : place.around = []) (hwalks : Walks root place names last) :
    names.length < (root.directories []).length * (root.directories []).length := by
  obtain ⟨hbounded, hlength⟩ := hwalks.bounded hplace (bounded_start hplace haround)
  obtain ⟨inside, hinside⟩ : ∃ inside, root.at? last.location = some (.directory inside) := by
    obtain ⟨inside, hfollow⟩ := hwalks.follow_eq hplace
    exact ⟨inside, (at?_of_follow hfollow).1⟩
  have hdepth := length_lt_of_directory hinside
  -- the trail goes through no more different directories than there are
  have hdistinct : last.trail.dedup.length ≤ (root.directories []).length :=
    (List.subperm_of_subset (List.nodup_dedup _) fun location h =>
      hbounded.real (List.mem_dedup.mp h)).length_le
  -- each of them but the first stands for at most that many steps down
  have hlinks : (last.trail.dedup.length - 1) * (root.directories []).length ≤
      (root.directories []).length * (root.directories []).length -
        (root.directories []).length := by
    rw [← Nat.sub_one_mul]
    exact Nat.mul_le_mul_right _ (Nat.sub_le_sub_right hdistinct 1)
  have hsteps := hbounded.steps
  have hstart : 0 < place.trail.length := Nat.succ_pos _
  have hsquare : (root.directories []).length ≤
      (root.directories []).length * (root.directories []).length :=
    Nat.le_mul_self _
  omega

end SvelteStories.Files
