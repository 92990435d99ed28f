import TagQuery.Catalogue
import TagQuery.Evaluation.Concurrent
import TagQuery.Evaluation.Polarity
import TagQuery.Main
import TagQuery.Proofs.Command.Loading
import TagQuery.Proofs.Command.Results
import TagQuery.Proofs.Database.Matching
import TagQuery.Proofs.Database.Requests
import TagQuery.Proofs.Evaluation.Cancellation
import TagQuery.Proofs.Evaluation.Containment
import TagQuery.Proofs.Evaluation.Degradation
import TagQuery.Proofs.Evaluation.Exactness
import TagQuery.Proofs.Evaluation.Footprint
import TagQuery.Proofs.Evaluation.Grouping
import TagQuery.Proofs.Location.NormalForm
import TagQuery.Proofs.Query.Descent
import TagQuery.Proofs.Query.Embedding
import TagQuery.Proofs.Query.ErrorPosition
import TagQuery.Proofs.Query.Juxtaposition
import TagQuery.Proofs.Query.Spans
import TagQuery.Proofs.Query.Words
import TagQuery.Proofs.Scope.Coverage
import TagQuery.Proofs.Scope.FoldedAlike
import TagQuery.Proofs.Scope.Locality
import TagQuery.Proofs.Scope.Minimality
import TagQuery.Proofs.Settings.Saving
import TagQuery.Proofs.Store.Ranking
import TagQuery.Proofs.Store.Recognition
import TagQuery.Proofs.Store.Suggestions
import TagQuery.Query.Grammar
import TagQuery.Query.Meaning
