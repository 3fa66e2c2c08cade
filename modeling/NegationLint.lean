import NegationLint.CommandLine.Summary
import NegationLint.Main
import NegationLint.Schema.Registry
import NegationLint.Proofs.Anchors
import NegationLint.Proofs.Answers
import NegationLint.Proofs.Queue
import NegationLint.Proofs.Conclusions
import NegationLint.Proofs.Placement
import NegationLint.Proofs.Substitution
import NegationLint.Proofs.Offers
import NegationLint.Proofs.Literals
import NegationLint.Proofs.Corrections
import NegationLint.Proofs.Stages
import NegationLint.Proofs.Embedding.Moved
import NegationLint.Proofs.Embedding.Request
import NegationLint.Proofs.Embedding.Correction
import NegationLint.Proofs.ReportContract
import NegationLint.Proofs.Embedding.Run
import NegationLint.Proofs.Inspection
import NegationLint.Proofs.Siblings
import NegationLint.Proofs.SelfCheck
import NegationLint.Proofs.Deliveries
import NegationLint.Proofs.Detection
import NegationLint.Proofs.LogTrace
import NegationLint.Proofs.Wrapping
import NegationLint.Proofs.Alphabet
import NegationLint.Proofs.Symbols
import NegationLint.Ruby.Hash
import NegationLint.Proofs.Hashes
import NegationLint.Proofs.Heights
import NegationLint.Proofs.Operations
import NegationLint.Proofs.RoundTrip
import NegationLint.Proofs.Provenance
import NegationLint.Proofs.Responses
import NegationLint.Proofs.Limits
