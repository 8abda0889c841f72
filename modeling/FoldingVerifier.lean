import FoldingVerifier.Cli
import FoldingVerifier.DeciderProof.Part
import FoldingVerifier.Main
import FoldingVerifier.Pairing.OptimalAte
import FoldingVerifier.Proofs.Arity
import FoldingVerifier.Proofs.Cli
import FoldingVerifier.Proofs.Curve.Count
import FoldingVerifier.Proofs.Curve.Decoding
import FoldingVerifier.Proofs.Curve.FirstGroup
import FoldingVerifier.Proofs.Curve.Law
import FoldingVerifier.Proofs.Curve.Membership
import FoldingVerifier.Proofs.Curve.Multiples
import FoldingVerifier.Proofs.Curve.Projective
import FoldingVerifier.Proofs.Curve.ScalarMultiples
import FoldingVerifier.Proofs.Curve.SecondGroup
import FoldingVerifier.Proofs.Decider.Acceptance
import FoldingVerifier.Proofs.Decider.Binding
import FoldingVerifier.Proofs.Decider.Canonical
import FoldingVerifier.Proofs.Decider.Checks
import FoldingVerifier.Proofs.Decider.Completeness
import FoldingVerifier.Proofs.Decider.EntryPoints
import FoldingVerifier.Proofs.Decider.FirstFailure
import FoldingVerifier.Proofs.Decider.Inputs
import FoldingVerifier.Proofs.Decider.Mutation
import FoldingVerifier.Proofs.Decider.Revalidation
import FoldingVerifier.Proofs.Decider.Sizes
import FoldingVerifier.Proofs.Decider.Verdict
import FoldingVerifier.Proofs.DeciderProof
import FoldingVerifier.Proofs.Documents
import FoldingVerifier.Proofs.ExitStatus
import FoldingVerifier.Proofs.Field.Extension
import FoldingVerifier.Proofs.Field.Modular
import FoldingVerifier.Proofs.Field.Primality
import FoldingVerifier.Proofs.Field.Residues
import FoldingVerifier.Proofs.Field.Tower
import FoldingVerifier.Proofs.Flat
import FoldingVerifier.Proofs.Forms
import FoldingVerifier.Proofs.Groth16Decision
import FoldingVerifier.Proofs.InputCombinations
import FoldingVerifier.Proofs.Json.Text
import FoldingVerifier.Proofs.KeyDocuments
import FoldingVerifier.Proofs.KeySpellings
import FoldingVerifier.Proofs.KzgOpenings
import FoldingVerifier.Proofs.Limbs
import FoldingVerifier.Proofs.LoadedKeys
import FoldingVerifier.Proofs.MalformedPoints
import FoldingVerifier.Proofs.Pairing.Bilinear
import FoldingVerifier.Proofs.Pairing.Products
import FoldingVerifier.Proofs.Polynomials
import FoldingVerifier.Proofs.ProofLayout
import FoldingVerifier.Proofs.PublicInputs
import FoldingVerifier.Proofs.Reshaping
import FoldingVerifier.Proofs.Text.Decimal
import FoldingVerifier.Proofs.Text.Grammar
import FoldingVerifier.Proofs.WordFormats
import FoldingVerifier.Proofs.WordGrammar
import FoldingVerifier.Proofs.Words
