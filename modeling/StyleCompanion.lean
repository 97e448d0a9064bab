import StyleCompanion.Main
import StyleCompanion.Overlay.Board
import StyleCompanion.Proofs.Application.Announcing
import StyleCompanion.Proofs.Application.Mirroring
import StyleCompanion.Proofs.Attribution.Acceptance
import StyleCompanion.Proofs.Attribution.Overflow
import StyleCompanion.Proofs.Attribution.Owners
import StyleCompanion.Proofs.Attribution.Spelling
import StyleCompanion.Proofs.Client.Grace
import StyleCompanion.Proofs.Client.Reads
import StyleCompanion.Proofs.Client.Replies
import StyleCompanion.Proofs.Client.Stopping
import StyleCompanion.Proofs.Overlay.Boards
import StyleCompanion.Proofs.Overlay.Hovering
import StyleCompanion.Proofs.Pairing.Bursts
import StyleCompanion.Proofs.Pairing.Coherence
import StyleCompanion.Proofs.Pairing.Exclusion
import StyleCompanion.Proofs.Pairing.Neighbors
import StyleCompanion.Proofs.Pairing.NewestWins
import StyleCompanion.Proofs.Pairing.StaleCompletion
import StyleCompanion.Proofs.Pairing.Tokens
import StyleCompanion.Proofs.Json.Saved
import StyleCompanion.Proofs.Settings.Honesty
import StyleCompanion.Proofs.Settings.Reloading
import StyleCompanion.Proofs.Application.Moves
import StyleCompanion.Proofs.Application.Paths
import StyleCompanion.Proofs.Application.Reach
import StyleCompanion.Proofs.Application.Cascade
import StyleCompanion.Proofs.Application.Schedule
import StyleCompanion.Proofs.Application.Places
import StyleCompanion.Proofs.Pairing.Renewal
import StyleCompanion.Proofs.Pairing.Orphans
import StyleCompanion.Proofs.Application.Focus
import StyleCompanion.Proofs.Rpc.Derailing
import StyleCompanion.Proofs.Overlay.Sharing
import StyleCompanion.Proofs.Pairing.Reconciling
import StyleCompanion.Proofs.Settings.Keys
import StyleCompanion.Proofs.Settings.Merging
import StyleCompanion.Proofs.Overlay.Covers
import StyleCompanion.Proofs.Rpc.Settling
import StyleCompanion.Proofs.Attribution.Arrival
import StyleCompanion.Proofs.Client.Relaunch
import StyleCompanion.Proofs.Attribution.Indexes
import StyleCompanion.Proofs.Rpc.Headers
import StyleCompanion.Proofs.Application.Swatches
