import SvelteStories.Compile
import SvelteStories.Files.Discovery
import SvelteStories.Logging
import SvelteStories.Markup.Walk
import SvelteStories.Proofs.Description
import SvelteStories.Proofs.Outline
import SvelteStories.Proofs.StoryCalls
import SvelteStories.Proofs.Location
import SvelteStories.Proofs.StoryRun
import SvelteStories.Proofs.NodeMap
import SvelteStories.Proofs.Rerun
import SvelteStories.Proofs.Spans
import SvelteStories.Proofs.EffectiveReading
import SvelteStories.Proofs.Recompile
import SvelteStories.Proofs.Growth
import SvelteStories.Proofs.CallPlaces
import SvelteStories.Proofs.EditWalk
import SvelteStories.Proofs.Sketch
import SvelteStories.Proofs.Agreement
import SvelteStories.Proofs.Recast
import SvelteStories.Proofs.Slices
import SvelteStories.Proofs.Reading
import SvelteStories.Proofs.Layout
import SvelteStories.Proofs.Drafts
import SvelteStories.Proofs.RoundTrip
import SvelteStories.Proofs.StoryPlaces
import SvelteStories.Proofs.StoryReport
import SvelteStories.Proofs.BraceGrammar
import SvelteStories.Proofs.SingleMeta
import SvelteStories.Proofs.FileName
import SvelteStories.Proofs.Rename
import SvelteStories.Proofs.RenamedTransform
import SvelteStories.Proofs.Ensuring
import SvelteStories.Proofs.MarkupSafety
import SvelteStories.Proofs.AttributeValues
import SvelteStories.Proofs.BindingNames
import SvelteStories.Proofs.DocComment
import SvelteStories.Proofs.Discovery
import SvelteStories.Proofs.Positions
