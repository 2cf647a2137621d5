import LongPollTunnel.Connection.Opening
import LongPollTunnel.Hub.Run
import LongPollTunnel.Main
import LongPollTunnel.Proofs.Framing
import LongPollTunnel.Proofs.Prefixes
import LongPollTunnel.Proofs.Characters
import LongPollTunnel.Proofs.Grammar
import LongPollTunnel.Proofs.Encoding
import LongPollTunnel.Proofs.Rewriting
import LongPollTunnel.Proofs.Slicing
import LongPollTunnel.Proofs.Reading
import LongPollTunnel.Proofs.Cutting
import LongPollTunnel.Proofs.Waiting
import LongPollTunnel.Proofs.Sessions
import LongPollTunnel.Proofs.Foresight
import LongPollTunnel.Proofs.Buffering
import LongPollTunnel.Proofs.Transmitting
import LongPollTunnel.Proofs.Sources
import LongPollTunnel.Proofs.Handshakes
import LongPollTunnel.Proofs.Scripts
import LongPollTunnel.Proofs.Settling
import LongPollTunnel.Proofs.Connections
import LongPollTunnel.Proofs.Claims
import LongPollTunnel.Proofs.Steps
import LongPollTunnel.Proofs.Holders
import LongPollTunnel.Proofs.Changes
import LongPollTunnel.Proofs.Registrations
import LongPollTunnel.Proofs.TakingDown
import LongPollTunnel.Proofs.Payloads
import LongPollTunnel.Proofs.Listings
import LongPollTunnel.Proofs.Registered
import LongPollTunnel.Proofs.Carrying
import LongPollTunnel.Proofs.Delivering
import LongPollTunnel.Proofs.Endings
import LongPollTunnel.Proofs.Chunks
import LongPollTunnel.Proofs.Errands
import LongPollTunnel.Proofs.Readers
import LongPollTunnel.Proofs.Promptness
import LongPollTunnel.Proofs.Relaying
import LongPollTunnel.Proofs.Answering
import LongPollTunnel.Proofs.Addressing
import LongPollTunnel.Proofs.Wordings
import LongPollTunnel.Proofs.Indifference
import LongPollTunnel.Proofs.Discretion
import LongPollTunnel.Proofs.Parts
import LongPollTunnel.Proofs.Locality
import LongPollTunnel.Proofs.Apart
import LongPollTunnel.Proofs.Independence
import LongPollTunnel.Proofs.Interleaving
import LongPollTunnel.Proofs.Accepting
import LongPollTunnel.Proofs.Numbers
import LongPollTunnel.Proofs.Fields
import LongPollTunnel.Proofs.Turns
import LongPollTunnel.Proofs.Configuring
import LongPollTunnel.Proofs.Refusing
import LongPollTunnel.Proofs.Passing
import LongPollTunnel.Proofs.Sweeping
import LongPollTunnel.Proofs.Reaping
import LongPollTunnel.Proofs.Queueing
import LongPollTunnel.Proofs.Seating
