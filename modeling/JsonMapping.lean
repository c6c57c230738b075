import JsonMapping.Derive.Mapper
import JsonMapping.Descriptor.Schema
import JsonMapping.Java.File
import JsonMapping.Mapper.Document
import JsonMapping.Run.Call
import JsonMapping.Value.Document
import JsonMapping.Proofs.Entries
import JsonMapping.Proofs.Naming.Dotted
import JsonMapping.Proofs.Naming.Grammar
import JsonMapping.Proofs.Naming.Written
import JsonMapping.Proofs.Json.Text
import JsonMapping.Proofs.Json.Records
import JsonMapping.Proofs.Descriptor.Document
import JsonMapping.Proofs.Mapper.Document
import JsonMapping.Proofs.Derive.Settings
import JsonMapping.Proofs.Derive.Constants
import JsonMapping.Proofs.Derive.Methods
import JsonMapping.Proofs.Derive.Names
import JsonMapping.Proofs.Derive.Plan
import JsonMapping.Proofs.Derive.Emitted
import JsonMapping.Proofs.Derive.Emissions
import JsonMapping.Proofs.Derive.Canonical
import JsonMapping.Proofs.Derive.Document
import JsonMapping.Proofs.Java.Meaning
import JsonMapping.Proofs.Run.Statements
import JsonMapping.Proofs.Run.Writing
import JsonMapping.Proofs.Run.Reading
import JsonMapping.Proofs.Run.Bodies
import JsonMapping.Proofs.Run.Depth
import JsonMapping.Proofs.Run.Nulls
import JsonMapping.Proofs.Run.Typing
import JsonMapping.Proofs.Graph.Basic
import JsonMapping.Proofs.Graph.Reading
import JsonMapping.Proofs.Graph.Loading
import JsonMapping.Proofs.Graph.Loaded
import JsonMapping.Proofs.RoundTrip.Fields
import JsonMapping.Proofs.RoundTrip.Values
import JsonMapping.Proofs.RoundTrip.Mappers
import JsonMapping.Proofs.RoundTrip.Embedded
import JsonMapping.Proofs.Scope.Basic
import JsonMapping.Proofs.Scope.Runs
import JsonMapping.Proofs.Scope.Demands
import JsonMapping.Proofs.Scope.Worlds
import JsonMapping.Proofs.Scope.Closure
import JsonMapping.Proofs.Derive.Faults
import JsonMapping.Proofs.Derive.Slice
import JsonMapping.Proofs.Registry.History
import JsonMapping.Proofs.Run.Directions
import JsonMapping.Proofs.Run.Contexts
import JsonMapping.Proofs.Registry.Twice
import JsonMapping.Proofs.Java.Imports
import JsonMapping.Proofs.Java.Literals
import JsonMapping.Proofs.Derive.Applications
import JsonMapping.Proofs.Java.Fields
import JsonMapping.Proofs.Run.Lists
import JsonMapping.Proofs.Run.Documents
import JsonMapping.Proofs.Nesting
import JsonMapping.Proofs.Mapper.Dependencies
import JsonMapping.Proofs.Naming.WireKeys
import JsonMapping.Proofs.Value.Document
