import TheoryScript.CommandLine.Directory
import TheoryScript.Main
import TheoryScript.Proofs.Smt.Form
import TheoryScript.Proofs.Smt.ReadBack
import TheoryScript.Proofs.Accepted
import TheoryScript.Proofs.Formula
import TheoryScript.Proofs.ByteOrder
import TheoryScript.Proofs.Emission
import TheoryScript.Proofs.Declarations
import TheoryScript.Proofs.Meaning
import TheoryScript.Proofs.Partition
import TheoryScript.Proofs.Lines
import TheoryScript.Proofs.Difference
import TheoryScript.Proofs.Composition
import TheoryScript.Proofs.Decoding
import TheoryScript.Proofs.CommandLine
import TheoryScript.Proofs.Rules.Difference
import TheoryScript.Proofs.Rules.Domain
import TheoryScript.Proofs.Verbosity
import TheoryScript.Proofs.Toml.Record
import TheoryScript.Proofs.StatementFile
import TheoryScript.Proofs.Domain
import TheoryScript.Proofs.NameCheck
import TheoryScript.Proofs.Smt.Reserved
import TheoryScript.Proofs.Variables
import TheoryScript.Proofs.Integer
import TheoryScript.Proofs.Smt.Symbol
import TheoryScript.Proofs.Application
import TheoryScript.Proofs.Cause
