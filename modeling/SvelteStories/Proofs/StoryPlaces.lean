import Mathlib.Data.List.Forall2
import Mathlib.Data.List.TakeWhile
import SvelteStories.Proofs.Layout
import SvelteStories.Story.Basic

/-!
# Where stories are found

The walk over a forest of markup finds the outermost elements of the story component: each of them,
once, in document order, and nothing else.  The comment of a story is the one above it: the first
sibling that is met on the way back from the story over blank text.  To say so without the walk,
this module names the nodes of a forest by their paths.  In a forest that was read from a text, the
stories stand one behind the other.

## Key results

- `mem_storyPaths`, `pairwise_storyPathsFrom`: the paths of the outermost stories, in document order
- `forall₂_declares_from`: the stories that the walk lists are declared at these paths
- `IsOrdered.pairwise_collectAmong`: the places of the stories
- `collect_outermost`: what is found in a forest
-/

namespace SvelteStories

open Text Markup

namespace Text

/-- A text is blank if nothing of it is left when the white space at its ends is removed. -/
theorem isBlankText_iff {cs : List Char} : isBlankText cs = true ↔ trim cs = [] := by
  rw [isBlankText, List.all_eq_true]
  constructor
  · intro hall
    have hstart : trimStart cs = [] := List.dropWhile_eq_nil_iff.mpr hall
    rw [trim, hstart]
    rfl
  · intro htrim c hc
    have hend : (trimStart cs).reverse.dropWhile isBlank = [] := List.reverse_eq_nil_iff.mp htrim
    rw [← List.takeWhile_append_dropWhile (p := isBlank) (l := cs)] at hc
    -- a character is in the white space at the start, or it is removed at the end
    rcases List.mem_append.mp hc with hc | hc
    · exact List.mem_takeWhile_imp hc
    · exact List.dropWhile_eq_nil_iff.mp hend c (List.mem_reverse.mpr hc)

end Text

namespace Markup

variable {nodes : List Node} {node : Node} {path : List Nat} {index : Nat}

/-! ## Paths -/

/-- The children of an element; other nodes have none. -/
def Node.children : Node → List Node
  | .element _ children => children
  | .comment _ _ | .text _ _ | .rawBlock _ => []

/-- The node at a path.  The steps of a path are the index of a root and then the indices of
    children. -/
def nodeAt? : List Node → List Nat → Option Node
  | _, [] => none
  | nodes, [index] => nodes[index]?
  | nodes, index :: next :: path =>
    nodes[index]?.bind fun node => nodeAt? node.children (next :: path)

/-- Induction over a forest: over the children of its first node and over the nodes behind it. -/
theorem forest_induction {P : List Node → Prop} (nil : P [])
    (cons : ∀ node rest, P node.children → P rest → P (node :: rest)) : ∀ nodes, P nodes
  | [] => nil
  | .element _ children :: rest =>
    cons _ _ (forest_induction nil cons children) (forest_induction nil cons rest)
  | .comment _ _ :: rest | .text _ _ :: rest | .rawBlock _ :: rest =>
    cons _ _ nil (forest_induction nil cons rest)

@[simp] theorem nodeAt?_nil : nodeAt? nodes [] = none := by
  cases nodes <;> rfl

/-- A path that goes on leads into the children of the node at its first step. -/
theorem nodeAt?_cons (hpath : path ≠ []) (hnode : nodes[index]? = some node) :
    nodeAt? nodes (index :: path) = nodeAt? node.children path := by
  obtain ⟨next, path, rfl⟩ := List.exists_cons_of_ne_nil hpath
  rw [nodeAt?, hnode, Option.bind_some]

/-- A comment stands above a node: it is a sibling before the node, with nothing but blank text
    between the two. -/
def StandsAbove (nodes : List Node) (comment below : List Nat) : Prop :=
  ∃ parent first second, comment = parent ++ [first] ∧ below = parent ++ [second] ∧
    first < second ∧ ∀ between, first < between → between < second →
      ∃ raw span, nodeAt? nodes (parent ++ [between]) = some (.text raw span) ∧ trim raw.toList = []

/-- Above a node inside another one stands what stands above it inside. -/
theorem standsAbove_cons {comment : List Nat} (hpath : path ≠ [])
    (hnode : nodes[index]? = some node) :
    StandsAbove nodes comment (index :: path) ↔
      ∃ inner, comment = index :: inner ∧ inner ≠ [] ∧ StandsAbove node.children inner path := by
  -- below the first step, paths lead to the same nodes
  have hinside : ∀ parent i, nodeAt? nodes (index :: (parent ++ [i])) =
      nodeAt? node.children (parent ++ [i]) :=
    fun parent i => nodeAt?_cons (by simp) hnode
  constructor
  · rintro ⟨parent, first, second, rfl, hbelow, hlt, hblank⟩
    cases parent with
    | nil => exact absurd (List.cons.inj hbelow).2 hpath
    | cons step parent =>
      obtain ⟨rfl, rfl⟩ := List.cons.inj hbelow
      refine ⟨parent ++ [first], rfl, by simp, parent, first, second, rfl, rfl, hlt, ?_⟩
      intro between hafter hbefore
      rw [← hinside]
      exact hblank between hafter hbefore
  · rintro ⟨_, rfl, -, parent, first, second, rfl, rfl, hlt, hblank⟩
    refine ⟨index :: parent, first, second, rfl, rfl, hlt, ?_⟩
    intro between hafter hbefore
    rw [List.cons_append, hinside]
    exact hblank between hafter hbefore

end Markup

namespace Story

variable {source : List Char} {component : String} {nodes rest : List Node} {node : Node}
  {path : List Nat} {index : Nat} {pending : Option String} {story : Story}

/-- There is an element of the story component at a path, and none around it. -/
structure IsOutermost (component : String) (nodes : List Node) (path : List Nat) : Prop where
  here : ∃ head children, nodeAt? nodes path = some (.element head children) ∧ head.name = component
  around : ∀ n < path.length, ∀ head children,
    nodeAt? nodes (path.take n) = some (.element head children) → head.name ≠ component

/-- The element at a path declares a story.  Its comment is the one that stands above the
    element. -/
structure Declares (source : List Char) (nodes : List Node) (path : List Nat) (story : Story) : Prop
    where
  element : ∃ head children, nodeAt? nodes path = some (.element head children) ∧
    story = ofElement source head children story.comment
  comment : ∀ data, story.comment = some data ↔
    ∃ above span, nodeAt? nodes above = some (.comment data span) ∧ StandsAbove nodes above path

/-! ## The paths of the walk -/

mutual

/-- The paths of the outermost stories in a node, from the node on. -/
def storyPaths (component : String) : Node → List (List Nat)
  | .element head children =>
    if head.name == component then [[]] else storyPathsFrom component children 0
  | .comment _ _ | .text _ _ | .rawBlock _ => []

/-- The paths of the outermost stories among nodes of which the first has the given index. -/
def storyPathsFrom (component : String) : List Node → Nat → List (List Nat)
  | [], _ => []
  | node :: rest, index =>
    (storyPaths component node).map (index :: ·) ++ storyPathsFrom component rest (index + 1)

end

/-- Whether a node is an element of the story component. -/
def IsStory (component : String) (node : Node) : Prop :=
  ∃ head children, node = .element head children ∧ head.name = component

/-- A story is found where it is, and nothing inside it. -/
theorem storyPaths_of_isStory (h : IsStory component node) : storyPaths component node = [[]] := by
  obtain ⟨head, children, rfl, hname⟩ := h
  simp [storyPaths, hname]

/-- In a node that is no story, the stories among its children are found. -/
theorem storyPaths_of_not_isStory (h : ¬ IsStory component node) :
    storyPaths component node = storyPathsFrom component node.children 0 := by
  cases node with
  | element head children =>
    have hname : head.name ≠ component := fun hname => h ⟨head, children, rfl, hname⟩
    simp [storyPaths, hname, Node.children]
  | comment data span => rfl
  | text raw span => rfl
  | rawBlock block => rfl

/-- A path leads to a story among nodes exactly if it leads to one in the node of its first step. -/
theorem mem_storyPathsFrom :
    path ∈ storyPathsFrom component nodes index ↔
      ∃ i node below, nodes[i]? = some node ∧ below ∈ storyPaths component node ∧
        path = (index + i) :: below := by
  induction nodes generalizing index with
  | nil => simp [storyPathsFrom]
  | cons node rest ih =>
    rw [storyPathsFrom, List.mem_append, List.mem_map, ih]
    constructor
    · rintro (⟨below, hbelow, rfl⟩ | ⟨i, other, below, hother, hbelow, rfl⟩)
      · exact ⟨0, node, below, rfl, hbelow, rfl⟩
      · exact ⟨i + 1, other, below, hother, hbelow, by rw [Nat.add_right_comm, Nat.add_assoc]⟩
    · rintro ⟨i, other, below, hother, hbelow, rfl⟩
      cases i with
      | zero =>
        obtain rfl := Option.some.inj hother
        exact .inl ⟨below, hbelow, rfl⟩
      | succ i =>
        exact .inr ⟨i, other, below, hother, hbelow, by rw [Nat.add_right_comm, Nat.add_assoc]⟩

theorem isOutermost_nil : ¬ IsOutermost component nodes [] := by
  rintro ⟨⟨head, children, h, -⟩, -⟩
  rw [nodeAt?_nil] at h
  exact nomatch h

/-- A path of one step leads to an outermost story exactly if a story is there. -/
theorem isOutermost_singleton :
    IsOutermost component nodes [index] ↔ ∃ node, nodes[index]? = some node ∧
      IsStory component node := by
  constructor
  · rintro ⟨⟨head, children, hnode, hname⟩, -⟩
    exact ⟨_, hnode, head, children, rfl, hname⟩
  · rintro ⟨_, hnode, head, children, rfl, hname⟩
    refine ⟨⟨head, children, hnode, hname⟩, ?_⟩
    intro n hn head' children' habove
    obtain rfl : n = 0 := by simpa using hn
    exact nomatch habove

/-- A longer path leads to an outermost story through a node that is no story. -/
theorem isOutermost_cons (hpath : path ≠ []) :
    IsOutermost component nodes (index :: path) ↔
      ∃ node, nodes[index]? = some node ∧ ¬ IsStory component node ∧
        IsOutermost component node.children path := by
  -- the node of the first step is around the story
  have hlength : 0 < path.length := List.length_pos_iff.mpr hpath
  constructor
  · rintro ⟨⟨head, children, hhere, hname⟩, haround⟩
    obtain ⟨node, hnode⟩ : ∃ node, nodes[index]? = some node := by
      obtain ⟨next, path, rfl⟩ := List.exists_cons_of_ne_nil hpath
      obtain ⟨node, hnode, -⟩ := Option.bind_eq_some_iff.mp hhere
      exact ⟨node, hnode⟩
    rw [nodeAt?_cons hpath hnode] at hhere
    refine ⟨node, hnode, ?_, ⟨head, children, hhere, hname⟩, ?_⟩
    · rintro ⟨head', children', rfl, hname'⟩
      have hone : 1 < (index :: path).length := Nat.succ_lt_succ hlength
      exact haround 1 hone head' children' hnode hname'
    · intro n hn head' children' habove
      refine haround (n + 1) (Nat.succ_lt_succ hn) head' children' ?_
      have htake : path.take n ≠ [] := by
        intro hnil
        rw [hnil, nodeAt?_nil] at habove
        exact nomatch habove
      rw [List.take_succ_cons, nodeAt?_cons htake hnode, habove]
  · rintro ⟨node, hnode, hstory, ⟨head, children, hhere, hname⟩, haround⟩
    refine ⟨⟨head, children, (nodeAt?_cons hpath hnode).trans hhere, hname⟩, ?_⟩
    intro n hn head' children' habove hname'
    cases n with
    | zero =>
      rw [List.take_zero, nodeAt?_nil] at habove
      exact nomatch habove
    | succ n =>
      have hn' : n < path.length := Nat.lt_of_succ_lt_succ hn
      rw [List.take_succ_cons] at habove
      by_cases htake : path.take n = []
      · -- the node of the first step
        rw [htake] at habove
        have heq : node = .element head' children' := Option.some.inj (hnode.symm.trans habove)
        exact hstory ⟨head', children', heq, hname'⟩
      · rw [nodeAt?_cons htake hnode] at habove
        exact haround n hn' head' children' habove hname'

/-- The walk finds the outermost stories and nothing else. -/
theorem mem_storyPaths :
    path ∈ storyPathsFrom component nodes 0 ↔ IsOutermost component nodes path := by
  induction path generalizing nodes with
  | nil =>
    refine iff_of_false ?_ isOutermost_nil
    rw [mem_storyPathsFrom]
    rintro ⟨i, node, below, -, -, h⟩
    exact nomatch h
  | cons index path ih =>
    -- the path leads to the node of its first step
    have hfirst : index :: path ∈ storyPathsFrom component nodes 0 ↔
        ∃ node, nodes[index]? = some node ∧ path ∈ storyPaths component node := by
      rw [mem_storyPathsFrom]
      simp only [Nat.zero_add, List.cons.injEq]
      constructor
      · rintro ⟨i, node, below, hnode, hbelow, rfl, rfl⟩
        exact ⟨node, hnode, hbelow⟩
      · rintro ⟨node, hnode, hbelow⟩
        exact ⟨index, node, path, hnode, hbelow, rfl, rfl⟩
    rw [hfirst]
    -- the story is that node, or inside of it
    by_cases hpath : path = []
    · subst hpath
      rw [isOutermost_singleton]
      refine exists_congr fun node => and_congr_right fun _ => ?_
      by_cases hstory : IsStory component node
      · simp [storyPaths_of_isStory hstory, hstory]
      · rw [storyPaths_of_not_isStory hstory, ih]
        exact iff_of_false isOutermost_nil hstory
    · rw [isOutermost_cons hpath]
      refine exists_congr fun node => and_congr_right fun _ => ?_
      by_cases hstory : IsStory component node
      · simp [storyPaths_of_isStory hstory, hstory, hpath]
      · rw [storyPaths_of_not_isStory hstory, ih, and_iff_right hstory]

/-- The paths are in document order: of two stories, the one that comes first has the first path. -/
theorem pairwise_storyPathsFrom (nodes : List Node) (index : Nat) :
    (storyPathsFrom component nodes index).Pairwise (· < ·) := by
  induction nodes using forest_induction generalizing index with
  | nil => exact List.Pairwise.nil
  | cons node rest ihChildren ihRest =>
    have hnode : (storyPaths component node).Pairwise (· < ·) := by
      by_cases hstory : IsStory component node
      · rw [storyPaths_of_isStory hstory]
        exact List.pairwise_singleton _ _
      · rw [storyPaths_of_not_isStory hstory]
        exact ihChildren 0
    rw [storyPathsFrom, List.pairwise_append, List.pairwise_map]
    refine ⟨hnode.imp fun h => List.cons_lt_cons_self.mpr h, ihRest (index + 1), ?_⟩
    -- the index of a node is before those of the nodes behind it
    intro first hfirst second hsecond
    obtain ⟨below, -, rfl⟩ := List.mem_map.mp hfirst
    obtain ⟨i, _, below', -, -, rfl⟩ := mem_storyPathsFrom.mp hsecond
    exact List.cons_lt_cons_iff.mpr (.inl (by omega))

/-! ## The comments of the walk -/

/-- A comment stands before an index, with nothing but blank text up to the index. -/
def Awaits (nodes : List Node) (index : Nat) (data : String) : Prop :=
  ∃ first span, first < index ∧ nodes[first]? = some (.comment data span) ∧
    ∀ between, first < between → between < index →
      ∃ raw span, nodes[between]? = some (.text raw span) ∧ trim raw.toList = []

theorem awaits_zero (nodes : List Node) (data : String) : ¬ Awaits nodes 0 data := by
  rintro ⟨first, span, hlt, -, -⟩
  exact absurd hlt (Nat.not_lt_zero first)

/-- What one node does to the comment that waits for a story: a comment takes its place, blank text
    keeps it and every other node drops it. -/
theorem awaits_succ {data : String} (hnode : nodes[index]? = some node) :
    Awaits nodes (index + 1) data ↔ (∃ span, node = .comment data span) ∨
      (∃ raw span, node = .text raw span ∧ trim raw.toList = []) ∧ Awaits nodes index data := by
  constructor
  · rintro ⟨first, span, hlt, hfirst, hblank⟩
    by_cases heq : first = index
    · subst heq
      exact .inl ⟨span, Option.some.inj (hnode.symm.trans hfirst)⟩
    · -- the comment is further before, and this node is blank text
      have hbefore : first < index := by omega
      obtain ⟨raw, span', htext, htrim⟩ := hblank index hbefore (Nat.lt_succ_self index)
      refine .inr ⟨⟨raw, span', Option.some.inj (hnode.symm.trans htext), htrim⟩,
        first, span, hbefore, hfirst, ?_⟩
      intro between hafter hbetween
      exact hblank between hafter (Nat.lt_succ_of_lt hbetween)
  · rintro (⟨span, rfl⟩ | ⟨⟨raw, span', rfl, htrim⟩, first, span, hlt, hfirst, hblank⟩)
    · refine ⟨index, span, Nat.lt_succ_self index, hnode, ?_⟩
      intro between hafter hbetween
      omega
    · refine ⟨first, span, Nat.lt_succ_of_lt hlt, hfirst, ?_⟩
      intro between hafter hbetween
      by_cases heq : between = index
      · subst heq
        exact ⟨raw, span', hnode, htrim⟩
      · exact hblank between hafter (by omega)

/-- What waits for a story behind one more node. -/
def waiting : Node → Option String → Option String
  | .comment data _, _ => some data
  | .text raw _, pending => if isBlankText raw.toList then pending else none
  | .element _ _, _ | .rawBlock _, _ => none

/-- The walk keeps track of the comment that waits for a story. -/
theorem waiting_eq_some {data : String} (hnode : nodes[index]? = some node)
    (hpending : ∀ data, pending = some data ↔ Awaits nodes index data) :
    waiting node pending = some data ↔ Awaits nodes (index + 1) data := by
  rw [awaits_succ hnode]
  cases node with
  | element head children => simp [waiting]
  | comment data' span => simp [waiting]
  | text raw span => simp [waiting, ← isBlankText_iff, hpending]
  | rawBlock block => simp [waiting]

/-! ## Stories at their paths -/

/-- A story takes the comment that waits, and what is inside it is not looked at. -/
theorem collectAmong_of_isStory {head : Element} {children : List Node}
    (hname : head.name = component) :
    collectAmong source component (.element head children :: rest) pending =
      ofElement source head children pending :: collectAmong source component rest none := by
  simp [collectAmong, hname]

/-- From a node that is no story, the stories among its children are collected. -/
theorem collectAmong_of_not_isStory (h : ¬ IsStory component node) :
    collectAmong source component (node :: rest) pending =
      collectAmong source component node.children none ++
        collectAmong source component rest (waiting node pending) := by
  cases node with
  | element head children =>
    have hname : head.name ≠ component := fun hname => h ⟨head, children, rfl, hname⟩
    simp [collectAmong, collectBelow, hname, Node.children, waiting]
  | comment data span => simp [collectAmong, Node.children, waiting]
  | text raw span => simp [collectAmong, Node.children, waiting]
  | rawBlock block => simp [collectAmong, Node.children, waiting]

/-- An element among the nodes declares a story with the comment that waits for it. -/
theorem declares_singleton {head : Element} {children : List Node}
    (hnode : nodes[index]? = some (.element head children))
    (hpending : ∀ data, pending = some data ↔ Awaits nodes index data) :
    Declares source nodes [index] (ofElement source head children pending) := by
  refine ⟨⟨head, children, hnode, rfl⟩, fun data => (hpending data).trans ?_⟩
  constructor
  · rintro ⟨first, span, hlt, hfirst, hblank⟩
    exact ⟨[first], span, hfirst, [], first, index, rfl, rfl, hlt, hblank⟩
  · rintro ⟨_, span, hcomment, parent, first, second, rfl, hbelow, hlt, hblank⟩
    -- a comment above stands in the same list
    cases parent with
    | nil =>
      obtain rfl : index = second := by simpa using hbelow
      exact ⟨first, span, hlt, hcomment, hblank⟩
    | cons step parent => simp at hbelow

/-- What a child of a node declares, it declares in the forest. -/
theorem Declares.below (hnode : nodes[index]? = some node)
    (h : Declares source node.children path story) :
    Declares source nodes (index :: path) story := by
  obtain ⟨⟨head, children, hhere, hstory⟩, hcomment⟩ := h
  -- there is no node at the empty path
  have hpath : path ≠ [] := by
    rintro rfl
    rw [nodeAt?_nil] at hhere
    exact nomatch hhere
  refine ⟨⟨head, children, (nodeAt?_cons hpath hnode).trans hhere, hstory⟩,
    fun data => (hcomment data).trans ?_⟩
  constructor
  · rintro ⟨above, span, hdata, habove⟩
    have hne : above ≠ [] := by
      rintro rfl
      rw [nodeAt?_nil] at hdata
      exact nomatch hdata
    exact ⟨index :: above, span, (nodeAt?_cons hne hnode).trans hdata,
      (standsAbove_cons hpath hnode).mpr ⟨above, rfl, hne, habove⟩⟩
  · rintro ⟨_, span, hdata, habove⟩
    obtain ⟨inner, rfl, hne, habove⟩ := (standsAbove_cons hpath hnode).mp habove
    rw [nodeAt?_cons hne hnode] at hdata
    exact ⟨inner, span, hdata, habove⟩

/-- The stories of the walk are declared at its paths. -/
theorem forall₂_declares_from (rest nodes : List Node) (index : Nat) (pending : Option String)
    (hrest : nodes.drop index = rest)
    (hpending : ∀ data, pending = some data ↔ Awaits nodes index data) :
    List.Forall₂ (Declares source nodes) (storyPathsFrom component rest index)
      (collectAmong source component rest pending) := by
  induction rest using forest_induction generalizing nodes index pending with
  | nil =>
    rw [collectAmong]
    exact List.Forall₂.nil
  | cons node rest ihChildren ihRest =>
    -- the walk has come up to the index
    have hnode : nodes[index]? = some node := by
      rw [← List.head?_drop, hrest, List.head?_cons]
    have hbehind : nodes.drop (index + 1) = rest := by
      rw [← List.tail_drop, hrest, List.tail_cons]
    have hothers := ihRest nodes (index + 1) (waiting node pending) hbehind
      fun data => waiting_eq_some hnode hpending
    rw [storyPathsFrom]
    by_cases hstory : IsStory component node
    · rw [storyPaths_of_isStory hstory]
      obtain ⟨head, children, rfl, hname⟩ := hstory
      rw [collectAmong_of_isStory hname]
      exact .cons (declares_singleton hnode hpending) hothers
    · rw [storyPaths_of_not_isStory hstory, collectAmong_of_not_isStory hstory]
      refine List.rel_append ?_ hothers
      rw [List.forall₂_map_left_iff]
      -- nothing waits before the first child
      have hchildren := ihChildren node.children 0 none rfl (by simp [awaits_zero])
      exact hchildren.imp fun path story h => h.below hnode

/-- The stories of a forest are declared at the paths of the walk. -/
theorem forall₂_declares (source : List Char) (component : String) (nodes : List Node) :
    List.Forall₂ (Declares source nodes) (storyPathsFrom component nodes 0)
      (collect source component nodes) :=
  forall₂_declares_from nodes nodes 0 none rfl (by simp [awaits_zero])

/-- A story was declared by an outermost element of the story component. -/
theorem exists_of_mem_collect (h : story ∈ collect source component nodes) :
    ∃ path, IsOutermost component nodes path ∧ Declares source nodes path story := by
  have hdeclares := forall₂_declares source component nodes
  obtain ⟨i, hi, rfl⟩ := List.mem_iff_getElem.mp h
  have hlength : i < (storyPathsFrom component nodes 0).length := by rwa [hdeclares.length_eq]
  exact ⟨_, mem_storyPaths.mp (List.getElem_mem hlength), hdeclares.get hlength hi⟩

/-! ## Spans in document order -/

/-- The nodes of a forest stand one behind the other, and the children of each inside it. -/
inductive IsOrdered : List Node → Prop
  | nil : IsOrdered []
  | cons {node : Node} {rest : List Node} (hnonempty : node.span.start < node.span.stop)
    (hbehind : ∀ other ∈ rest, node.span.stop ≤ other.span.start)
    (hinside : ∀ child ∈ node.children,
      node.span.start ≤ child.span.start ∧ child.span.stop ≤ node.span.stop)
    (hchildren : IsOrdered node.children) (hrest : IsOrdered rest) : IsOrdered (node :: rest)

/-- The nodes of a list are ordered if they stand one behind the other, with ordered children
    inside. -/
theorem isOrdered_of (hnonempty : ∀ node ∈ nodes, node.span.start < node.span.stop)
    (hordered : nodes.Pairwise fun first second => first.span.stop ≤ second.span.start)
    (hinside : ∀ node ∈ nodes, ∀ child ∈ node.children,
      node.span.start ≤ child.span.start ∧ child.span.stop ≤ node.span.stop)
    (hchildren : ∀ node ∈ nodes, IsOrdered node.children) : IsOrdered nodes := by
  induction nodes with
  | nil => exact .nil
  | cons node rest ih =>
    simp only [List.forall_mem_cons, List.pairwise_cons] at hnonempty hordered hinside hchildren
    exact .cons hnonempty.1 hordered.1 hinside.1 hchildren.1
      (ih hnonempty.2 hordered.2 hinside.2 hchildren.2)

variable {text : List Char} {enclosing : List String} {within : Span}

/-- The children of a node that is laid out are laid out inside it. -/
theorem laidOut_children (h : LaidOut text enclosing within nodes) (hnode : node ∈ nodes) :
    node.children = [] ∨ ∃ enclosing content, LaidOut text enclosing content node.children ∧
      node.span.start ≤ content.start ∧ content.stop ≤ node.span.stop := by
  obtain ⟨hlayout, hbelow⟩ := laidOut_iff.mp h
  have hstands := hlayout.stands node hnode
  cases node with
  | element head children =>
    rw [Markup.Node.Stands] at hstands
    cases hcontent : head.content with
    | none =>
      simp only [hcontent] at hstands
      exact .inl hstands.1
    | some content =>
      simp only [hcontent] at hstands
      obtain ⟨opening, hopening, -⟩ := hstands.opening
      obtain ⟨closing, hclosing, -⟩ := hstands.closing
      -- the content is between the tags
      have hstart := stop_of_slice? hopening
      have hstop := stop_of_slice? hclosing
      simp only at hstart hstop
      refine .inr ⟨_, content, hbelow head children content hnode hcontent, ?_, ?_⟩
      · simp only [Node.span]
        omega
      · simp only [Node.span]
        omega
  | comment data span => exact .inl rfl
  | text raw span => exact .inl rfl
  | rawBlock block => exact .inl rfl

/-- What is laid out is ordered, if what is laid out below it is. -/
theorem isOrdered_of_children (h : LaidOut text enclosing within nodes)
    (hchildren : ∀ node ∈ nodes, ∀ enclosing content,
      LaidOut text enclosing content node.children → IsOrdered node.children) :
        IsOrdered nodes := by
  have hlayout := (laidOut_iff.mp h).1
  refine isOrdered_of hlayout.nonempty hlayout.ordered.2 ?_ ?_
  · intro node hnode child hchild
    rcases laidOut_children h hnode with hnone | ⟨enclosing, content, hcontent, hstart, hstop⟩
    · -- without children there is nothing to be shown
      rw [hnone] at hchild
      exact absurd hchild List.not_mem_nil
    · have hinside := (laidOut_iff.mp hcontent).1.ordered.1 child hchild
      omega
  · intro node hnode
    rcases laidOut_children h hnode with hnone | ⟨enclosing, content, hcontent, -, -⟩
    · rw [hnone]
      exact .nil
    · exact hchildren node hnode _ _ hcontent

/-- A forest that is laid out in a text stands in order there. -/
theorem isOrdered_of_laidOut (h : LaidOut text enclosing within nodes) : IsOrdered nodes := by
  refine isOrdered_of_children h ?_
  clear h
  induction nodes using forest_induction with
  | nil => exact fun node hnode => absurd hnode List.not_mem_nil
  | cons first rest ihChildren ihRest =>
    rw [List.forall_mem_cons]
    exact ⟨fun _ _ hcontent => isOrdered_of_children hcontent ihChildren, ihRest⟩

/-- The stories of a forest in order stand inside its nodes, one behind the other. -/
theorem IsOrdered.collectAmong (h : IsOrdered nodes) (pending : Option String) :
    (∀ story ∈ collectAmong source component nodes pending, story.span.start < story.span.stop ∧
      ∃ node ∈ nodes, node.span.start ≤ story.span.start ∧ story.span.stop ≤ node.span.stop) ∧
    (Story.collectAmong source component nodes pending).Pairwise
      fun first second => first.span.stop ≤ second.span.start := by
  induction h generalizing pending with
  | nil => simp [Story.collectAmong]
  | @cons node rest hnonempty hbehind hinside _ _ ihChildren ihRest =>
    -- the stories of the first node, inside it, and those of the nodes behind it
    obtain ⟨here, next, heq, hhere, hpairwise⟩ : ∃ here next,
        Story.collectAmong source component (node :: rest) pending =
          here ++ Story.collectAmong source component rest next ∧
        (∀ story ∈ here, story.span.start < story.span.stop ∧
          node.span.start ≤ story.span.start ∧ story.span.stop ≤ node.span.stop) ∧
        here.Pairwise fun first second => first.span.stop ≤ second.span.start := by
      by_cases hstory : IsStory component node
      · obtain ⟨head, children, rfl, hname⟩ := hstory
        refine ⟨[ofElement source head children pending], none, collectAmong_of_isStory hname, ?_,
          List.pairwise_singleton _ _⟩
        intro story hstory
        -- the node is the only story in it
        obtain rfl := List.mem_singleton.mp hstory
        exact ⟨hnonempty, Nat.le_refl _, Nat.le_refl _⟩
      · obtain ⟨hplaces, hpairwise⟩ := ihChildren none
        refine ⟨_, _, collectAmong_of_not_isStory hstory, ?_, hpairwise⟩
        intro story hmem
        obtain ⟨hlt, child, hchild, hstart, hstop⟩ := hplaces story hmem
        -- a story in a child is inside the node
        have hbounds := hinside child hchild
        omega
    obtain ⟨hplaces, hothers⟩ := ihRest next
    rw [heq, List.pairwise_append]
    refine ⟨?_, hpairwise, hothers, ?_⟩
    · intro story hmem
      rcases List.mem_append.mp hmem with hmem | hmem
      · exact ⟨(hhere story hmem).1, node, List.mem_cons_self, (hhere story hmem).2⟩
      · obtain ⟨hlt, other, hother, hbounds⟩ := hplaces story hmem
        exact ⟨hlt, other, List.mem_cons_of_mem node hother, hbounds⟩
    · intro first hfirst second hsecond
      obtain ⟨-, other, hother, hstart, -⟩ := hplaces second hsecond
      have hnode := hbehind other hother
      have hstop := (hhere first hfirst).2.2
      omega

/-! ## What is found in a forest -/

/-- No comment stands above two elements. -/
theorem eq_of_standsAbove {comment first second : List Nat}
    (hfirst : StandsAbove nodes comment first) (hsecond : StandsAbove nodes comment second)
    (helement : ∃ head children, nodeAt? nodes first = some (.element head children))
    (helement' : ∃ head children, nodeAt? nodes second = some (.element head children)) :
    first = second := by
  obtain ⟨parent, i, j, rfl, rfl, hij, hblank⟩ := hfirst
  obtain ⟨parent', i', j', heq, rfl, hij', hblank'⟩ := hsecond
  obtain ⟨rfl, hi⟩ := List.append_inj' heq rfl
  obtain rfl : i = i' := by simpa using hi
  obtain ⟨head, children, helement⟩ := helement
  obtain ⟨head', children', helement'⟩ := helement'
  -- the one that comes first would be blank text
  rcases Nat.lt_trichotomy j j' with hlt | rfl | hlt
  · obtain ⟨raw, span, htext, -⟩ := hblank' j hij hlt
    exact nomatch helement.symm.trans htext
  · rfl
  · obtain ⟨raw, span, htext, -⟩ := hblank j' hij' hlt
    exact nomatch helement'.symm.trans htext

/-- The stories of a forest are the outermost elements of the story component, in document order and
    each once.  The comment of a story is the one that stands above it, and no comment stands above
    two stories.  In a forest that was read from a text, the stories stand one behind the other. -/
theorem collect_outermost (source : List Char) (component : String) (nodes : List Node) :
    ∃ paths : List (List Nat), paths.Pairwise (· < ·) ∧
      (∀ path, path ∈ paths ↔ IsOutermost component nodes path) ∧
      List.Forall₂ (Declares source nodes) paths (collect source component nodes) ∧
      (∀ comment, ∀ first ∈ paths, ∀ second ∈ paths, StandsAbove nodes comment first →
        StandsAbove nodes comment second → first = second) ∧
      ∀ text, parse text = .ok nodes →
        (∀ story ∈ collect source component nodes, story.span.start < story.span.stop) ∧
        (collect source component nodes).Pairwise fun first second =>
          first.span.start < second.span.start ∧ first.span.stop ≤ second.span.start := by
  refine ⟨storyPathsFrom component nodes 0, pairwise_storyPathsFrom nodes 0,
    fun path => mem_storyPaths, ?_, ?_, ?_⟩
  · exact forall₂_declares_from nodes nodes 0 none rfl (by simp [awaits_zero])
  · intro comment first hfirst second hsecond habove habove'
    -- a comment stands above the first element behind it only
    obtain ⟨head, children, hhere, -⟩ := (mem_storyPaths.mp hfirst).here
    obtain ⟨head', children', hhere', -⟩ := (mem_storyPaths.mp hsecond).here
    exact eq_of_standsAbove habove habove' ⟨head, children, hhere⟩ ⟨head', children', hhere'⟩
  · intro text hparse
    obtain ⟨hplaces, hordered⟩ :=
      @IsOrdered.collectAmong source component nodes
        (isOrdered_of_laidOut (laidOut_of_parse hparse)) none
    refine ⟨fun story hmem => (hplaces story hmem).1, hordered.imp_of_mem ?_⟩
    intro first second hfirst _ hle
    -- a story is not empty, so that the next one starts behind its start
    have hlt := (hplaces first hfirst).1
    exact ⟨by omega, hle⟩

/-- Two stories with comments, and an element of the component inside a story. -/
def sampleStories : List Char :=
  "<!--a--><!--b-->\n<Story><Story/></Story><div><!--c--></div><Story/>".toList

/-- The second story has no comment, and the element inside the first one is no story. -/
theorem collect_sampleStories : ∃ nodes, parse sampleStories = .ok nodes ∧
    (collect sampleStories "Story" nodes).map (·.comment) = [some "b", none] ∧
    (collect sampleStories "Story" nodes).Pairwise fun first second =>
      first.span.start < second.span.start ∧ first.span.stop ≤ second.span.start := by
  have hcheck : (parse sampleStories).toOption.any (fun nodes =>
      (collect sampleStories "Story" nodes).map (·.comment) == [some "b", none]) = true := by
    decide +kernel
  obtain ⟨nodes, hparse, hcomments⟩ := exists_ok_of_any hcheck
  obtain ⟨paths, -, -, -, -, hplaces⟩ := collect_outermost sampleStories "Story" nodes
  exact ⟨nodes, hparse, by simpa using hcomments, (hplaces sampleStories hparse).2⟩

end Story

end SvelteStories
