import ReVault.Core.Allocator
import ReVault.Core.FormatRoundTrip
import ReVault.Core.Transparent
import ReVault.Foundation.Fallible
import ReVault.Foundation.Image
import ReVault.Foundation.Ring
import ReVault.Foundation.Runs
import ReVault.Runs.Accounting
import ReVault.Integrity.Forgery
import ReVault.Runs.Nonces
import ReVault.Sharing.Exclusion
import ReVault.Sync.Replay
import ReVault.Serving.Console
import ReVault.Serving.Unlocked
import ReVault.Serving.Rotation
import ReVault.Serving.Position
import ReVault.Serving.Delivery
import ReVault.Serving.Rejection
import ReVault.Net.Acceptance
import ReVault.Net.Relay
import ReVault.Net.Parity
import ReVault.Net.Codec
import ReVault.Net.Pinned
import ReVault.Core.HeaderLayout
import ReVault.Files.Faults
import ReVault.Runs.Frame
import ReVault.Runs.Crash
import ReVault.Runs.Interruption
import ReVault.Core.AllocatorRuns
import ReVault.Net.Invite
import ReVault.Net.Refused
import ReVault.Files.Readback
import ReVault.Runs.Capacity
import ReVault.Ledger.Records
import ReVault.Ledger.Outcomes
import ReVault.Ledger.Refinement
import ReVault.Core.IdentityFile
import ReVault.Core.Summary
import ReVault.Foundation.Simulation
import ReVault.Device.Account
import ReVault.Device.Handle
import ReVault.Device.Shell
import ReVault.Device.Describes
import ReVault.Cli.Command
import ReVault.Cli.Outcome
import ReVault.Cli.Session
import ReVault.Tui.Forms
import ReVault.Tui.Unlocked
import ReVault.Tui.Vaults
import ReVault.Tui.App
import ReVault.Tui.Focus
import ReVault.Tui.Steps
import ReVault.Tui.Frames
import ReVault.Tui.Timeout
import ReVault.Foundation.Ghost
import ReVault.Runs.Ghosts
import ReVault.Device.Descent
import ReVault.Tui.Screen
import ReVault.Tui.Containers
import ReVault.Device.Removal
import ReVault.Tui.Questions
import ReVault.Foundation.Mailbox
import ReVault.Net.Connection
import ReVault.Tui.Bridge
import ReVault.Tui.Served
import ReVault.Tui.Requests
import ReVault.Tui.Answers
import ReVault.Tui.Admission
import ReVault.Tui.Histories
