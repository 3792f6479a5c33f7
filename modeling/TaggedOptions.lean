import TaggedOptions.Main
import TaggedOptions.Proofs.Assembling
import TaggedOptions.Proofs.Reading
import TaggedOptions.Proofs.Answering
import TaggedOptions.Proofs.RoundTrip
import TaggedOptions.Proofs.History
import TaggedOptions.Proofs.Synonyms
import TaggedOptions.Proofs.Mentions
import TaggedOptions.Proofs.ReadBack
import TaggedOptions.Proofs.PlaceTexts
import TaggedOptions.Proofs.RealPlaces
import TaggedOptions.Proofs.Resolving
import TaggedOptions.Proofs.Rejections
import TaggedOptions.Proofs.Requests
import TaggedOptions.Proofs.Stages
import TaggedOptions.Proofs.Loading
import TaggedOptions.Proofs.UsedFlags
import TaggedOptions.Proofs.Repetitions
import TaggedOptions.Proofs.Unrequested
import TaggedOptions.Proofs.CanonicalPaths
import TaggedOptions.Proofs.Defaults
import TaggedOptions.Proofs.ProjectRoots
import TaggedOptions.Proofs.Listings
import TaggedOptions.Proofs.PathValues
import TaggedOptions.Proofs.GivenDefaults
import TaggedOptions.Proofs.OtherSelections
import TaggedOptions.Proofs.Destinations
import TaggedOptions.Proofs.GeneratorStages
import TaggedOptions.Proofs.RefusedDefaults
import TaggedOptions.Proofs.Refusals
import TaggedOptions.Proofs.TagGroups
