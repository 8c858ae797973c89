import HeaderCatalog.Main
import HeaderCatalog.Proofs.BraceMatching
import HeaderCatalog.Proofs.Coordinates
import HeaderCatalog.Proofs.DemandedSpace
import HeaderCatalog.Proofs.ErrorSearch
import HeaderCatalog.Proofs.ExitCodes
import HeaderCatalog.Proofs.Exports.Clearance
import HeaderCatalog.Proofs.Exports.Routes
import HeaderCatalog.Proofs.HeaderParameters
import HeaderCatalog.Proofs.MixedSlots
import HeaderCatalog.Proofs.Normalizing
import HeaderCatalog.Proofs.PreOrder
import HeaderCatalog.Proofs.SettingsLoading
import HeaderCatalog.Proofs.SharedClassTexts
import HeaderCatalog.Proofs.SourceOrder
import HeaderCatalog.Proofs.Widening.Runs
