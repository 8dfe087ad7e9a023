import ForeignKey.Json.Reader
import ForeignKey.ParseError.Form
import ForeignKey.Proofs.Alternatives
import ForeignKey.Proofs.CandidateCache.Shared
import ForeignKey.Proofs.Extension
import ForeignKey.Proofs.Lint.Silence
import ForeignKey.Proofs.Location.Text
import ForeignKey.Proofs.Number
import ForeignKey.Proofs.Parsing
import ForeignKey.Proofs.Pattern.Addressing
import ForeignKey.Proofs.Pattern.Composition
import ForeignKey.Proofs.Pattern.Reading
import ForeignKey.Proofs.Pattern.Search
import ForeignKey.Proofs.RoundTrip
import ForeignKey.Proofs.RuleSet.Faults
import ForeignKey.Proofs.Validation.Congruence
import ForeignKey.Proofs.Validation.Misconfiguration
import ForeignKey.Proofs.Validation.Normal
import ForeignKey.Proofs.Validation.SelfReference
import ForeignKey.Proofs.Validation.Texts
import ForeignKey.Proofs.Validation.Walks
import ForeignKey.Proofs.Value.Canonical
import ForeignKey.Report.Yaml
