import FleetosCore.Attestation.AkPoint
import FleetosCore.Attestation.PcrBinding
import FleetosCore.Attestation.PcrPolicy
import FleetosCore.Attestation.Tpm.Credential
import FleetosCore.Attestation.Tpm.EkRegistration
import FleetosCore.Attestation.Tpm.HonestQuote
import FleetosCore.Attestation.Tpm.KeyStates
import FleetosCore.Attestation.Tpm.RemoteAttestation
import FleetosCore.Attestation.Tpm.Replies
import FleetosCore.Attestation.Tpm.Rollback
import FleetosCore.Attestation.Tpm.SealPolicy
import FleetosCore.Attestation.Tpm.SlotDiscipline
import FleetosCore.Certificate.ReaderBounds
import FleetosCore.Certificate.RenewedPeer
import FleetosCore.Crypto.Sealing
import FleetosCore.Identity.Constructors
import FleetosCore.Identity.Hostname
import FleetosCore.Policy.HexIds
import FleetosCore.Policy.Version
import FleetosCore.Proto.Framing
import FleetosCore.Proto.Vsock
