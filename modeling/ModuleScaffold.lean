import ModuleScaffold.Main
import ModuleScaffold.Proofs.Text.Identifier
import ModuleScaffold.Proofs.Outline
import ModuleScaffold.Proofs.Text.Lines
import ModuleScaffold.Proofs.Names
import ModuleScaffold.Proofs.Reading.Body
import ModuleScaffold.Proofs.Reading.Inputs
import ModuleScaffold.Proofs.Agreement
import ModuleScaffold.Proofs.Scoping
import ModuleScaffold.Proofs.World.Files
import ModuleScaffold.Proofs.Refinement.Attempt
import ModuleScaffold.Proofs.Refinement.Course
import ModuleScaffold.Proofs.Layout
import ModuleScaffold.Proofs.Refinement.Recognition
import ModuleScaffold.Proofs.Reading.Token
import ModuleScaffold.Proofs.Reading.TypeConstraint
import ModuleScaffold.Proofs.Reading.Signature
import ModuleScaffold.Proofs.Naming
import ModuleScaffold.Proofs.Configurable
import ModuleScaffold.Proofs.Clashes
import ModuleScaffold.Proofs.Json.Passage
import ModuleScaffold.Proofs.Json.Lexeme
import ModuleScaffold.Proofs.Json.Skip
import ModuleScaffold.Proofs.Json.Part
import ModuleScaffold.Proofs.Json.Document
import ModuleScaffold.Proofs.FirstDocument
import ModuleScaffold.Proofs.Passes
import ModuleScaffold.Proofs.Refinement.Inside
import ModuleScaffold.Proofs.Command.Protocol
import ModuleScaffold.Proofs.Syntax.Module
import ModuleScaffold.Proofs.Filtering
import ModuleScaffold.Proofs.Joining
import ModuleScaffold.Proofs.Deleting
import ModuleScaffold.Proofs.Descriptions
import ModuleScaffold.Proofs.Iteration
import ModuleScaffold.Proofs.Layout.Repeating
import ModuleScaffold.Proofs.Provider.Pinning
import ModuleScaffold.Proofs.Diagnostics.Quoted
import ModuleScaffold.Proofs.Grouping
import ModuleScaffold.Proofs.Removing
import ModuleScaffold.Proofs.Skips
import ModuleScaffold.Proofs.Provider.Canonical
import ModuleScaffold.Proofs.Resolving
import ModuleScaffold.Proofs.AttributeType
import ModuleScaffold.Proofs.Decoding
import ModuleScaffold.Proofs.Indentation
