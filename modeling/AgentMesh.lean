import AgentMesh.Main
import AgentMesh.Service.Basic
import AgentMesh.Proofs.Consensus.Arrival
import AgentMesh.Proofs.Encoding
import AgentMesh.Proofs.Envelope.Grammar
import AgentMesh.Proofs.Exchange.Agreement
import AgentMesh.Proofs.Exchange.Contacts
import AgentMesh.Proofs.Exchange.Dispatch
import AgentMesh.Proofs.Node.Isolation
import AgentMesh.Proofs.Node.Mirror
import AgentMesh.Proofs.Node.Ownership
import AgentMesh.Proofs.Node.Upkeep
import AgentMesh.Proofs.Peer.Listing
import AgentMesh.Proofs.Scheduler.Listing
import AgentMesh.Proofs.Scheduler.Placement
import AgentMesh.Proofs.Scheduler.Signals
import AgentMesh.Proofs.Scheduler.Timing
import AgentMesh.Proofs.Service.Refusals
import AgentMesh.Proofs.Settings.Participants
