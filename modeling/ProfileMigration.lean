import ProfileMigration.Main
import ProfileMigration.Manager.Client
import ProfileMigration.Net.Target
import ProfileMigration.Proofs.Build.Isolation
import ProfileMigration.Proofs.Collection.Interruption
import ProfileMigration.Proofs.Delivery.Cancellation
import ProfileMigration.Proofs.Delivery.Provenance
import ProfileMigration.Proofs.Field.Binding
import ProfileMigration.Proofs.Field.Presence
import ProfileMigration.Proofs.Legacy.CleanTrees
import ProfileMigration.Proofs.Legacy.Registration
import ProfileMigration.Proofs.Plan.OrderIndependence
import ProfileMigration.Proofs.Plan.ProfileKinds
import ProfileMigration.Proofs.Plan.PulledPolicies
import ProfileMigration.Proofs.Run.Atomicity
import ProfileMigration.Proofs.Run.PlainData
import ProfileMigration.Proofs.Run.Resume
import ProfileMigration.Proofs.Run.SavedCollection
import ProfileMigration.Proofs.Run.SavedPush
import ProfileMigration.Proofs.Template.Communities
import ProfileMigration.Proofs.Template.Integers
import ProfileMigration.Proofs.Template.Monotonicity
import ProfileMigration.Proofs.Template.References
import ProfileMigration.Proofs.Template.Variables
import ProfileMigration.Proofs.Template.Wrapping
