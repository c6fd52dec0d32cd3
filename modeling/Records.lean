import Records.Main
import Records.Proofs.Store.Evolution
import Records.Proofs.Prefab.Keys
import Records.Proofs.Prefab.History
import Records.Proofs.Prefab.Catalog
import Records.Proofs.Registry.Coherence
import Records.Proofs.Computation.Advance
import Records.Proofs.Registry.Plan
import Records.Proofs.Registry.Session
import Records.Proofs.Registry.Identity
import Records.Proofs.Registry.Publication
import Records.Proofs.Computation.Trace
import Records.Proofs.Computation.Sequence
import Records.Proofs.RecordType.Chain
import Records.Proofs.RecordType.Offset
import Records.Proofs.Store.Built
import Records.Proofs.Construction.Guards
import Records.Proofs.Construction.Fields
import Records.Proofs.Attachment.Visit
import Records.Proofs.RecordType.Partition
import Records.Proofs.Instance.Aliasing
import Records.Proofs.Registry.Inheritance
import Records.Proofs.Prefab.Grammar
import Records.Proofs.Prefab.Printed
import Records.Proofs.Registry.Denotation
import Records.Proofs.Registry.RoundTrip
import Records.Proofs.Registry.Written
import Records.Proofs.Registry.Failure
import Records.Proofs.Registry.Redefinition
import Records.Proofs.Attachment.Replay
import Records.Proofs.Registry.Retention
import Records.Proofs.Registry.Designation
import Records.Proofs.Registry.Idempotence
import Records.Proofs.Application.Guarantee
import Records.Proofs.Application.Reaches
import Records.Proofs.Instance.Immutable
import Records.Proofs.Shape.Caching
import Records.Proofs.Shape.Names
import Records.Proofs.Shape.Plain
import Records.Proofs.Registry.Bare
import Records.Proofs.Registry.Purity
import Records.Proofs.Registry.Literal
import Records.Proofs.Computation.Relying
import Records.Proofs.Instance.Persistence
import Records.Proofs.Attachment.Agreement
import Records.Proofs.Application.Dispatch
import Records.Proofs.Instance.Capability
import Records.Proofs.Application.Chain
import Records.Proofs.Application.Forwarding
import Records.Proofs.Attachment.Implied
import Records.Proofs.Registry.Implied
import Records.Proofs.Application.Refusal
import Records.Proofs.Application.Advertised
import Records.Proofs.Registry.FieldRange
import Records.Proofs.Registry.Provision
import Records.Proofs.Registry.Ledger
import Records.Proofs.Registry.Usage
import Records.Proofs.Registry.Delivery
import Records.Proofs.Registry.Leftover
import Records.Proofs.RecordType.Descent
import Records.Proofs.Shape.Composite
import Records.Proofs.Shape.Unissued
import Records.Proofs.Interning.Symbols
import Records.Proofs.Value.Label
import Records.Proofs.Attachment.Checked
import Records.Proofs.Registry.Checked
