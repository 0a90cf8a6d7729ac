import Mustache.Accessor
import Mustache.Log
import Mustache.Lambda.Script
import Mustache.Showcase
import Mustache.Proofs.Acyclic
import Mustache.Proofs.Bounded
import Mustache.Proofs.Change
import Mustache.Proofs.Closed
import Mustache.Proofs.Closure
import Mustache.Proofs.CommentLine
import Mustache.Proofs.Complement
import Mustache.Proofs.Excerpt
import Mustache.Proofs.History
import Mustache.Proofs.InBounds
import Mustache.Proofs.Inclusion
import Mustache.Proofs.Indexing
import Mustache.Proofs.LineEnding
import Mustache.Proofs.LineSearch
import Mustache.Proofs.Machine
import Mustache.Proofs.Markup
import Mustache.Proofs.Missing
import Mustache.Proofs.NormalForm
import Mustache.Proofs.Position
import Mustache.Proofs.Precedence
import Mustache.Proofs.Reachable
import Mustache.Proofs.Recording
import Mustache.Proofs.Reparse
import Mustache.Proofs.Representation
import Mustache.Proofs.Resolution
import Mustache.Proofs.RoundTrip
import Mustache.Proofs.SnakeCase
import Mustache.Proofs.Trimming
