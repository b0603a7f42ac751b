import SvelteStories.Proofs.Recompile
import SvelteStories.Proofs.RuntimeImports
import SvelteStories.Proofs.StoryPlaces

/-!
# What a compilation reports and what it writes

A compilation reports the stories of the stories file, and it writes them into the story calls of
the compiled module.  The report only looks at the stories file and the code only at the module, so
the two have to be shown to tell the same.  The code is read again for this, and read the way in
which the edits find their way through a props object.

## Key results

- `propertyAt?_documented_description`, `propertyAt?_documented_docs`: what is read in a props
  object after a story was documented
- `Story.entry_agrees`: what is reported of a story and the call that was written for it
- `rawCode_infix_of_read`: raw code is a part of the stories file
- `compile_report`: a whole compilation
-/

namespace SvelteStories

open Text Diagnostic Script

namespace Script

/-! ## Reading at the end of a path -/

/-- The object literal at the end of a path, if there is one. -/
def Properties.objectAt? (path : List String) (properties : Properties) : Option Properties :=
  match Properties.at? path properties with
  | .ok found => found
  | .error _ => none

/-- The property with the given key in the object literal at the end of a path. -/
def Properties.propertyAt? (path : List String) (key : String) (properties : Properties) :
    Option Node :=
  (Properties.objectAt? path properties).bind (·.find? (·.hasKey key))

/-- The object literal at the end of a path through the props object of a story call. -/
def Node.objectAt? (path : List String) (call : Node) : Option Properties :=
  call.props?.bind (Properties.objectAt? path)

/-- The property with the given key at the end of a path through the props object of a story
    call. -/
def Node.propertyAt? (path : List String) (key : String) (call : Node) : Option Node :=
  (call.objectAt? path).bind (·.find? (·.hasKey key))

namespace Properties

variable {path : List String} {properties : Properties} {found : Option Properties}

theorem objectAt?_of_at? (h : at? path properties = .ok found) :
    objectAt? path properties = found := by
  rw [objectAt?, h]

/-- A property is found among those at the end of a path, if there are any. -/
theorem propertyAt?_of_at? (key : String) (h : at? path properties = .ok found) :
    propertyAt? path key properties = (found.getD []).find? (·.hasKey key) := by
  rw [propertyAt?, objectAt?_of_at? h]
  cases found <;> rfl

/-- There is a description exactly if a property is found where it stands. -/
theorem isDescribed_eq_isSome (subject : Subject) (properties : Properties) :
    Edit.isDescribed subject properties =
      (propertyAt? descriptionPath subject.key properties).isSome := by
  unfold Edit.isDescribed propertyAt? objectAt?
  cases at? descriptionPath properties with
  | error e => rfl
  | ok found =>
    cases found with
    | none => rfl
    | some description => exact List.isSome_find?.symm

end Properties

namespace Node

/-- A map that keeps objects changes neither the way along a path nor what is at its end, beside
    mapping it. -/
theorem KeepsObjects.objectAt?_map {φ : Node → Node} (hφ : KeepsObjects φ) (path : List String)
    (properties : Properties) :
    Properties.objectAt? path (properties.map φ) =
      (Properties.objectAt? path properties).map (List.map φ) := by
  unfold Properties.objectAt?
  rw [hφ.carries.at?_map]
  cases Properties.at? path properties <;> rfl

/-- A map that keeps objects keeps which property has a key. -/
theorem KeepsObjects.find?_map {φ : Node → Node} (hφ : KeepsObjects φ) (key : String)
    (properties : Properties) :
    (properties.map φ).find? (·.hasKey key) = (properties.find? (·.hasKey key)).map φ := by
  simp only [List.find?_map, Function.comp_def, hφ.hasKey_map]

/-- What is found in object literals that differ in their spans only differs in its spans only. -/
theorem map_find?_of_eraseSpans {found other : Option Properties} (key : String)
    (h : found.map (List.map eraseSpans) = other.map (List.map eraseSpans)) :
    (found.bind (·.find? (·.hasKey key))).map eraseSpans =
      (other.bind (·.find? (·.hasKey key))).map eraseSpans := by
  have hread (found : Option Properties) : (found.bind (·.find? (·.hasKey key))).map eraseSpans =
      (found.map (List.map eraseSpans)).bind (·.find? (·.hasKey key)) := by
    cases found with
    | none => rfl
    | some properties => exact (keepsObjects_eraseSpans.find?_map key properties).symm
  rw [hread, h, hread]

/-- The spans of a call do not decide what is at the end of a path. -/
theorem objectAt?_eraseSpans (path : List String) (call : Node) :
    call.eraseSpans.objectAt? path = (call.objectAt? path).map (List.map eraseSpans) := by
  unfold Node.objectAt?
  rw [props?_eraseSpans]
  cases call.props? with
  | none => rfl
  | some properties => exact keepsObjects_eraseSpans.objectAt?_map path properties

end Node

end Script

namespace Edit

open Properties

variable {story : Story} {properties : Properties}

/-! ## A props object with a story -/

/-- The parameters of a story that was documented are those with its description and, as the last
    one, its raw code. -/
theorem at?_parameters_documented (h : storyObstacle? story properties = none) :
    ∃ found, at? parametersPath (described story.comment (subjectOf story) properties) = .ok found ∧
      at? parametersPath (documented story properties) =
        .ok (some (add (found.getD []) linkageKey (linkage story))) := by
  obtain ⟨found, hfound⟩ := obstacle?_eq_none.mp (obstacle?_described h)
  exact ⟨found, hfound, at?_modifyAt _ hfound⟩

/-- The property in which a text was written is the one that was there, or else the text. -/
theorem find?_withText (comment : String) (subject : Subject) (description : Properties) :
    (withText comment subject description).find? (·.hasKey subject.key) =
      some ((description.find? (·.hasKey subject.key)).getD
        (.ofEntry subject.key (.ofString (Text.dedentString comment)))) := by
  -- the text is added only if there was no property with the key
  unfold withText has
  rw [← List.isSome_find?]
  cases hfound : description.find? (·.hasKey subject.key) with
  | some property => rw [Option.isSome_some, if_pos rfl, hfound, Option.getD_some]
  | none =>
    -- the added property is the first one with the key, as there was none
    have hkey :
      (Node.ofEntry subject.key (.ofString (Text.dedentString comment))).hasKey subject.key =
        true := by
      rw [Node.hasKey_ofEntry, beq_self_eq_true]
    rw [Option.isSome_none, if_neg Bool.false_ne_true, add, List.find?_append,
      hfound, Option.none_or, List.find?_cons, hkey, Option.getD_none]

/-- After a story with a comment was documented, its description is the one that was there, or else
    what the comment says. -/
theorem propertyAt?_documented_description {comment : String}
    (h : storyObstacle? story properties = none) (hcomment : story.comment = some comment) :
    propertyAt? descriptionPath "story" (documented story properties) =
      some ((propertyAt? descriptionPath "story" properties).getD
        (.ofEntry "story" (.ofString (Text.dedentString comment)))) := by
  have hfree : obstacle? descriptionPath properties = none := by
    simpa [storyObstacle?, neededPath, hcomment] using h
  obtain ⟨found, hfound⟩ := obstacle?_eq_none.mp hfree
  -- the raw code is written beside the documentation, not into it
  have hlinked : at? descriptionPath (documented story properties) =
      at? descriptionPath (described story.comment (subjectOf story) properties) :=
    at?_modifyAt_parameters (obstacle?_described h) fun parameters =>
      object?_add_of_ne parameters (linkage story) (by decide)
  rw [hcomment, described, at?_modifyAt _ hfound] at hlinked
  rw [propertyAt?_of_at? _ hlinked, propertyAt?_of_at? _ hfound]
  exact find?_withText comment (subjectOf story) (found.getD [])

/-- Documenting a story without a comment keeps what its parameters say about documentation. -/
theorem propertyAt?_documented_docs (h : storyObstacle? story properties = none)
    (hcomment : story.comment = none) :
    propertyAt? parametersPath "docs" (documented story properties) =
      propertyAt? parametersPath "docs" properties := by
  obtain ⟨found, hfound, hdocumented⟩ := at?_parameters_documented h
  rw [hcomment, described] at hfound
  -- the raw code that is added has another key
  have hkey : (Node.ofEntry linkageKey (linkage story)).hasKey "docs" = false := by
    rw [Node.hasKey_ofEntry]
    decide
  rw [propertyAt?_of_at? _ hdocumented, propertyAt?_of_at? _ hfound, Option.getD_some, add,
    List.find?_append, List.find?_cons, hkey, List.find?_nil, Option.or_none]

end Edit

/-! ## The report of one story -/

/-- What an index calls a story. -/
def StoryEntry.label? (entry : StoryEntry) : Option String :=
  entry.name <|> entry.exportName

/-- Whether a description that is reported is ignored in a story call, as the call has one. -/
def StoryEntry.isIgnoredIn (entry : StoryEntry) (call : Node) : Bool :=
  entry.description.isSome && (call.propertyAt? Properties.descriptionPath "story").isSome

/-- What is reported of a story agrees with its call in the code.  The first call is the one that
    was compiled and the second one the one in the code; they are compared up to spans. -/
structure StoryEntry.Agrees (source : String) (entry : StoryEntry)
    (call written : Node) : Prop where
  /-- The raw code is a part of the stories file. -/
  source : entry.rawCode.toList <:+: source.toList
  /-- The raw code is the last one of the parameters. -/
  linked : ((written.objectAt? Properties.parametersPath).bind List.getLast?).map Node.eraseSpans =
    some (.ofEntry Edit.linkageKey (.ofProperties [.ofEntry "rawCode" (.ofString entry.rawCode)]))
  /-- The description is the one that was there, or else the one that is reported. -/
  described : ∀ text, entry.description = some text →
    (written.propertyAt? Properties.descriptionPath "story").map Node.eraseSpans =
      some (((call.propertyAt? Properties.descriptionPath "story").map Node.eraseSpans).getD
        (.ofEntry "story" (.ofString text)))
  /-- Without a description, what was there about documentation is kept. -/
  undescribed : entry.description = none →
    (written.propertyAt? Properties.parametersPath "docs").map Node.eraseSpans =
      (call.propertyAt? Properties.parametersPath "docs").map Node.eraseSpans

namespace Story

variable {story : Story} {call written : Script.Node}

theorem isSome_description_entry (story : Story) :
    story.entry.description.isSome = story.comment.isSome :=
  Option.isSome_map

/-- What is read in a call that was written for a story is what documenting the story leaves. -/
theorem objectAt?_of_written {properties : Properties} (path : List String)
    (hprops : call.props? = some properties)
    (hwritten : written.eraseSpans = (Edit.documentedCall story call).eraseSpans) :
    (written.objectAt? path).map (List.map Node.eraseSpans) =
      ((Edit.documented story properties).objectAt? path).map (List.map Node.eraseSpans) := by
  rw [← Node.objectAt?_eraseSpans, hwritten, Node.objectAt?_eraseSpans, Node.objectAt?,
    Edit.documentedCall, Node.props?_mapProps, hprops, Option.map_some, Option.bind_some]

/-- The report of a story agrees with every call that was written for it. -/
theorem entry_agrees {source : String} {properties : Properties}
    (hsource : story.rawCode.toList <:+: source.toList)
    (hfree : Edit.callObstacle? story call = none) (hprops : call.props? = some properties)
    (hwritten : written.eraseSpans = (Edit.documentedCall story call).eraseSpans) :
    story.entry.Agrees source call written := by
  have hobstacle := Edit.storyObstacle?_of_callObstacle? hfree properties hprops
  have hcall (path : List String) (key : String) :
      call.propertyAt? path key = properties.propertyAt? path key := by
    rw [Node.propertyAt?, Node.objectAt?, hprops, Option.bind_some, Properties.propertyAt?]
  have hread (path : List String) (key : String) :
      (written.propertyAt? path key).map Node.eraseSpans =
        ((Edit.documented story properties).propertyAt? path key).map Node.eraseSpans :=
    Node.map_find?_of_eraseSpans key (objectAt?_of_written path hprops hwritten)
  -- nodes that are added have no spans
  have hentry (key text : String) : (Script.Node.ofEntry key (.ofString text)).eraseSpans =
      .ofEntry key (.ofString text) := by
    rw [Node.rebuildsObjects_eraseSpans.ofEntry_map, Script.Node.ofString,
      Node.rebuildsObjects_eraseSpans.leaf]
  refine ⟨hsource, ?_, ?_, ?_⟩
  · obtain ⟨found, -, hdocumented⟩ := Edit.at?_parameters_documented hobstacle
    have hparameters := objectAt?_of_written Properties.parametersPath hprops hwritten
    rw [Properties.objectAt?_of_at? hdocumented, Option.map_some] at hparameters
    -- the linkage is the last of the parameters
    obtain ⟨parameters, hparameters, hsame⟩ := Option.map_eq_some_iff.mp hparameters
    rw [hparameters, Option.bind_some, ← List.getLast?_map, hsame, Properties.add, List.map_append,
      List.map_singleton, List.getLast?_concat, Node.rebuildsObjects_eraseSpans.ofEntry_map,
      Node.rebuildsObjects_eraseSpans.linkage_map, Edit.linkage]
    rfl
  · intro text htext
    -- the description is the one that was there, or else the text
    obtain ⟨comment, hcomment, rfl⟩ := Option.map_eq_some_iff.mp htext
    rw [hread, hcall, Edit.propertyAt?_documented_description hobstacle hcomment, Option.map_some]
    cases properties.propertyAt? Properties.descriptionPath "story" with
    | none => exact congrArg some (hentry _ _)
    | some property => rfl
  · intro hnone
    -- without a comment the documentation is left as it is
    have hcomment : story.comment = none := Option.map_eq_none_iff.mp hnone
    rw [hread, hcall, Edit.propertyAt?_documented_docs hobstacle hcomment]

/-! ## Raw code -/

/-- The raw code of an element is a part of the stories file, letter by letter. -/
theorem rawCode_infix (source : List Char) (head : Markup.Element) (children : List Markup.Node) :
    (Markup.rawCode source head children).toList <:+: source := by
  unfold Markup.rawCode
  cases head.content with
  | none => exact List.nil_infix
  | some content =>
    rw [String.toList_ofList]
    exact slice_infix _ source

/-- The raw code of a story stands in the source. -/
theorem rawCode_infix_of_mem {source : List Char} {component : String} {nodes : List Markup.Node}
    (h : story ∈ collect source component nodes) : story.rawCode.toList <:+: source := by
  obtain ⟨path, -, hdeclares⟩ := exists_of_mem_collect h
  obtain ⟨head, children, -, helement⟩ := hdeclares.element
  rw [congrArg rawCode helement]
  exact rawCode_infix source head children

end Story

namespace Edit

/-! ## Warnings -/

/-- The subject of a comment is ignored in a call if there is a comment and the call has a
    description. -/
theorem ignoredInCall_eq (story : Story) (call : Node) :
    ignoredInCall story call =
      if story.entry.isIgnoredIn call then [subjectOf story] else [] := by
  unfold ignoredInCall StoryEntry.isIgnoredIn Node.propertyAt? Node.objectAt?
  rw [Story.isSome_description_entry]
  cases call.props? with
  | none => simp
  | some properties =>
    show ignoredIn story.comment (subjectOf story) properties = _
    rw [ignoredIn, Properties.isDescribed_eq_isSome]
    rfl

/-- The subjects of all comments that are ignored are the stories whose descriptions are. -/
theorem ignoredInCalls_eq_map_filter {stories : List Story} {calls : List Node}
    (hlen : stories.length = calls.length) :
    ignoredInCalls stories calls =
      (((stories.map Story.entry).zip calls).filter fun pair => pair.1.isIgnoredIn pair.2).map
        fun pair => .story pair.1.label? := by
  induction stories generalizing calls with
  | nil => rfl
  | cons story stories ih =>
    obtain ⟨call, calls, rfl⟩ := List.exists_cons_of_length_eq_add_one hlen.symm
    rw [ignoredInCalls, ignoredInCall_eq, ih (by simpa using hlen), List.map_cons,
      List.zip_cons_cons, List.filter_cons]
    split <;> rfl

end Edit

/-! ## A whole compilation -/

open Edit

variable {options : CompileOptions} {result : CompileResult} {declared : StoriesFile}
  {filename package : String} {module read : Module} {content : CompiledContent}

/-- The stories of a stories file are collected from its nodes. -/
theorem stories_of_read {source : String}
    (h : StoriesFile.read filename source package = .ok declared) :
    ∃ nodes, Markup.parse source.toList = .ok nodes ∧
      declared.stories = Story.collect source.toList declared.component nodes := by
  unfold StoriesFile.read at h
  obtain ⟨nodes, hparse, h⟩ := exists_of_bind_eq_ok h
  cases hscript : StoriesFile.moduleScript? nodes with
  | none =>
    rw [hscript] at h
    exact nomatch h
  | some script =>
    rw [hscript] at h
    -- the steps before the collecting only fail or pass
    obtain ⟨_, -, h⟩ := exists_of_bind_eq_ok h
    obtain ⟨module, -, h⟩ := exists_of_bind_eq_ok h
    -- the module has to import the function
    cases hbound : module.metaImport? package with
    | none =>
      rw [hbound] at h
      exact nomatch h
    | some bound =>
      rw [hbound] at h
      obtain ⟨_, -, h⟩ := exists_of_bind_eq_ok h
      obtain ⟨_, -, h⟩ := exists_of_bind_eq_ok h
      obtain ⟨_, -, h⟩ := exists_of_bind_eq_ok h
      obtain ⟨component, -, h⟩ := exists_of_bind_eq_ok h
      obtain rfl := Except.ok.inj h
      exact ⟨nodes, eq_ok_of_mapError_eq_ok hparse, rfl⟩

/-- The raw code of every story of a stories file is a part of the file. -/
theorem rawCode_infix_of_read {source : String}
    (h : StoriesFile.read filename source package = .ok declared) :
    ∀ story ∈ declared.stories, story.rawCode.toList <:+: source.toList := by
  intro story hstory
  obtain ⟨nodes, -, hcollect⟩ := stories_of_read h
  rw [hcollect] at hstory
  exact Story.rawCode_infix_of_mem hstory

/-- A compilation that answers with a result did what a transform does, and reports the stories of
    the stories file. -/
theorem follows_of_compile (h : compile options = .ok result) :
    ∃ declared module,
      StoriesFile.read options.filename options.source options.package = .ok declared ∧
      Module.parse? options.compiled false = some module ∧
      compiledTo? options =
        some (transform options.filename declared.content options.package module).module ∧
      Follows (transform options.filename declared.content options.package module) result
        (transform options.filename declared.content options.package module).module ∧
      result.stories = declared.stories.map Story.entry := by
  cases hsource : compileModule options with
  | error report =>
    rw [compile, hsource] at h
    cases h
  | ok found =>
    obtain ⟨declared, module, added, hdeclared, hmodule, hok, rfl⟩ :=
      exists_of_compileModule hsource
    -- the result is that of the transform, with what was declared
    rw [compile, hsource] at h
    obtain rfl := Except.ok.inj h
    refine ⟨declared, module, hdeclared, hmodule, ?_, ⟨rfl, SameTree.refl _, hok, rfl⟩, rfl⟩
    rw [compiledTo?, hsource]
    rfl

/-- In a module that is read with the tree that a transform left, the story calls are those that the
    transform documented, up to spans. -/
theorem callsIn_of_sameTree {file : StoriesContent} {before after : List Node} {declaration : Node}
    {object : Properties}
    (hlocated : module.Located package content before declaration after object)
    (hmeta : obstacle? (neededPath file.metaDescription []) object = none)
    (hlen : file.stories.length = (callsIn content module).length)
    (hsame : SameTree (finished filename file package content module object).module read) :
    ∃ content', read.compiledContent filename package = .ok content' ∧
      content'.component = content.component ∧
      (callsIn content' read).map Node.eraseSpans =
        (List.zipWith documentedCall file.stories (callsIn content module)).map
          Node.eraseSpans := by
  -- what the transform looked for is found again, first in what it left and then in what is read
  obtain ⟨_, _, _, _, _, hsettled, hcomponent, -⟩ := settled_finished filename hlocated hlen hmeta
  obtain ⟨content', _, _, _, _, hread, hcomponent', -⟩ := hsame.located hsettled
  have hkept : content'.component = content.component := hcomponent'.trans hcomponent
  refine ⟨content', hread.compiledContent filename, hkept, ?_⟩
  rw [← callsIn_finished filename file hlocated hlen, callsIn, callsIn, hkept,
    ← Node.storyCallsAmong_map_eraseSpans, ← hsame.statements, Node.storyCallsAmong_map_eraseSpans]

/-- The report of the stories agrees with the calls that were written for them, one by one. -/
theorem agrees_of_getElem? {source : String} {stories : List Story} {calls others : List Node}
    (hsource : ∀ story ∈ stories, story.rawCode.toList <:+: source.toList)
    (hfree : Free stories calls) (hprops : ∀ call ∈ calls, call.props?.isSome = true)
    (hothers : others.map Node.eraseSpans =
      (List.zipWith documentedCall stories calls).map Node.eraseSpans)
    {i : Nat} {entry : StoryEntry} {call written : Node}
    (hentry : (stories.map Story.entry)[i]? = some entry) (hcall : calls[i]? = some call)
    (hwritten : others[i]? = some written) : entry.Agrees source call written := by
  rw [List.getElem?_map] at hentry
  obtain ⟨story, hstory, rfl⟩ := Option.map_eq_some_iff.mp hentry
  -- up to spans, the call is the one that was written for the story
  have hsame : written.eraseSpans = (documentedCall story call).eraseSpans := by
    have hread := congrArg (·[i]?) hothers
    simp only [List.getElem?_map, List.getElem?_zipWith, hwritten, hcall, hstory] at hread
    exact Option.some.inj hread
  obtain ⟨properties, hproperties⟩ :=
    Option.isSome_iff_exists.mp (hprops call (List.mem_of_getElem? hcall))
  exact Story.entry_agrees (hsource story (List.mem_of_getElem? hstory))
    (hfree.callObstacle?_eq_none hstory hcall) hproperties hsame

/-- The warnings that a transform gives: at most one for the component, and then those for the
    stories. -/
theorem warnings_finished (filename : String) (file : StoriesContent) (package : String)
    (content : CompiledContent) (module : Module) (object : Properties) :
    (finished filename file package content module object).warnings =
      (ignoredIn file.metaDescription .component object).map (·.explicitDescription filename) ++
        (ignoredInCalls file.stories (callsIn content module)).map
          (·.explicitDescription filename) := by
  rw [finished, ignoredUpTo, List.take_length, List.map_append]

/-- What a compilation reports agrees with the code that it answers with, if the code is read as the
    module that was printed.  There is a story call in the code for every story that is reported,
    and the two agree.  Beside one warning for the component, if any, there is a warning for each
    story whose description is ignored, in order.  The runtime import is reported as inserted
    exactly if it was not there. -/
theorem compile_report (h : compile options = .ok result)
    (hreads : ∀ printed, compiledTo? options = some printed → ReadsBack printed) :
    ∃ module content read content',
      Module.parse? options.compiled false = some module ∧
      module.compiledContent options.filename options.package = .ok content ∧
      Module.parse? result.code false = some read ∧
      read.compiledContent options.filename options.package = .ok content' ∧
      content'.component = content.component ∧
      (callsIn content module).length = result.stories.length ∧
      (callsIn content' read).length = result.stories.length ∧
      (∀ (i : Nat) entry call written, result.stories[i]? = some entry →
        (callsIn content module)[i]? = some call → (callsIn content' read)[i]? = some written →
        entry.Agrees options.source call written) ∧
      (∃ ofComponent,
        (ofComponent = [] ∨
          ofComponent = [Subject.component.explicitDescription options.filename]) ∧
        result.warnings = ofComponent ++
          ((result.stories.zip (callsIn content module)).filter
            fun pair => pair.1.isIgnoredIn pair.2).map
              fun pair => (Subject.story pair.1.label?).explicitDescription options.filename) ∧
      (result.importInserted = true ↔ ¬ module.ImportsRuntime options.package) := by
  obtain ⟨declared, module, hdeclared, hmodule, hprinted, hfollows, hstories⟩ :=
    follows_of_compile h
  obtain ⟨read, hparse, hsame⟩ := hreads _ hprinted
  obtain ⟨content, before, declaration, after, object, hlocated, hmeta, hfree,
      htransform, hadded⟩ :=
    located_of_outcome_eq_ok hfollows.importInserted
  -- the stories were paired with the calls, one by one
  have hlen : declared.stories.length = (callsIn content module).length := hfree.length_eq
  rw [htransform] at hsame
  obtain ⟨content', hcontent', hcomponent, hcalls⟩ := callsIn_of_sameTree hlocated hmeta hlen hsame
  refine ⟨module, content, read, content', hmodule, hlocated.compiledContent _,
    hfollows.code ▸ hparse, hcontent', hcomponent, ?_, ?_, ?_, ?_, ?_⟩
  · -- the calls are as many as the stories, before and after
    rw [hstories, List.length_map, hlen]
  · have hlength := congrArg List.length hcalls
    rw [List.length_map, List.length_map, List.length_zipWith] at hlength
    rw [hlength, hstories, List.length_map]
    exact Nat.min_eq_left hlen.le
  · -- each entry agrees with the call that was written for its story
    intro i entry call written hentry hcall hwritten
    rw [hstories] at hentry
    exact agrees_of_getElem? (rawCode_infix_of_read hdeclared) hfree hlocated.props hcalls hentry
      hcall hwritten
  · refine ⟨(ignoredIn declared.metaDescription .component object).map
      (·.explicitDescription options.filename), ?_, ?_⟩
    · -- there is a warning for the component or none
      unfold ignoredIn
      split
      · exact .inr rfl
      · exact .inl rfl
    · -- the warnings for the stories are those of the calls that have a description
      have hignored : ignoredInCalls declared.content.stories (callsIn content module) = _ :=
        ignoredInCalls_eq_map_filter hlen
      rw [hfollows.warnings, htransform, warnings_finished, hignored, hstories, List.map_map]
      rfl
  · rw [hadded, Bool.not_eq_true', ← Bool.not_eq_true, Module.hasRuntimeImport_iff]

/-- A stories file with two stories that have comments, and its compiled module, in which the second
    story has a description. -/
def describedOptions : CompileOptions where
  filename := "A.stories.svelte"
  source := "<script module>import \x7bdefineMeta\x7d from \"csf\";" ++
    "const \x7bStory\x7d = defineMeta(\x7b\x7d);</script>" ++
    "<!--Usual--><Story>\"é\"\n</Story><!--Other--><Story/>"
  compiled :=
    "import \x7bdefineMeta\x7d from \"csf\";const \x7bStory\x7d = defineMeta(\x7b\x7d);" ++
    "Story(n, \x7b\x7d);Story(n, \x7bparameters: \x7bdocs: \x7bdescription: \x7bstory: 1\x7d\x7d\x7d\x7d);"
  package := "csf"

/-- The code has a call for each of the two stories. -/
theorem compile_describedOptions : ∃ result read content,
    compile describedOptions = .ok result ∧ Module.parse? result.code false = some read ∧
      read.compiledContent describedOptions.filename "csf" = .ok content ∧
      (callsIn content read).length = 2 := by
  have hcheck : (compileModule describedOptions).toOption.any
      (fun found => found.1.stories.length == 2 && decide (ReadsBack found.2.1.module)) = true := by
    decide +kernel
  obtain ⟨⟨declared, transformed, added⟩, hsource, hfound⟩ := exists_ok_of_any hcheck
  obtain ⟨hlength, hreads⟩ := Bool.and_eq_true_iff.mp hfound
  have hcompile : ∃ result, compile describedOptions = .ok result ∧ result.stories.length = 2 := by
    rw [compile, hsource]
    exact ⟨_, rfl, (List.length_map _).trans (eq_of_beq hlength)⟩
  obtain ⟨result, hresult, hstories⟩ := hcompile
  -- the printed module is read back, which can be computed
  have hprinted : ∀ printed, compiledTo? describedOptions = some printed → ReadsBack printed := by
    intro printed hsome
    rw [compiledTo?, hsource] at hsome
    obtain rfl := Option.some.inj hsome
    exact of_decide_eq_true hreads
  obtain ⟨-, -, read, content, -, -, hread, hcontent, -, -, hcalls, -⟩ :=
    compile_report hresult hprinted
  exact ⟨result, read, content, hresult, hread, hcontent, hcalls.trans hstories⟩

end SvelteStories
