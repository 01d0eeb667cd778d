import DiscussionBoard.Browsing
import DiscussionBoard.Decimal.Shortest
import DiscussionBoard.Decimal.Stepwise
import DiscussionBoard.Discussion
import DiscussionBoard.Document
import DiscussionBoard.Document.Json
import DiscussionBoard.Document.Record
import DiscussionBoard.Document.Toml
import DiscussionBoard.Document.Toml.Moment
import DiscussionBoard.Document.Toml.Scalar
import DiscussionBoard.Document.Toml.Tree
import DiscussionBoard.Fault
import DiscussionBoard.Forum
import DiscussionBoard.Id
import DiscussionBoard.Id.Text
import DiscussionBoard.Instant
import DiscussionBoard.Instant.Calendar
import DiscussionBoard.Instant.Range
import DiscussionBoard.Instant.Relaxed
import DiscussionBoard.Instant.Text
import DiscussionBoard.Listing
import DiscussionBoard.LogFilter
import DiscussionBoard.LogFilter.Text
import DiscussionBoard.Main
import DiscussionBoard.Moderation
import DiscussionBoard.Poster
import DiscussionBoard.Program
import DiscussionBoard.Proofs.Browsing.Arrangement
import DiscussionBoard.Proofs.Browsing.Navigation
import DiscussionBoard.Proofs.Browsing.Secrecy
import DiscussionBoard.Proofs.Discipline
import DiscussionBoard.Proofs.Document.IdSpelling
import DiscussionBoard.Proofs.Document.InstantSpelling
import DiscussionBoard.Proofs.Document.Json
import DiscussionBoard.Proofs.Document.Numeral
import DiscussionBoard.Proofs.Document.RoundTrip
import DiscussionBoard.Proofs.Listing.Closest
import DiscussionBoard.Proofs.Listing.Order
import DiscussionBoard.Proofs.Listing.Widening
import DiscussionBoard.Proofs.Moderation.Bystanders
import DiscussionBoard.Proofs.Moderation.LastWrite
import DiscussionBoard.Proofs.Register
import DiscussionBoard.Proofs.Seeding
import DiscussionBoard.Proofs.Settings.Layering
import DiscussionBoard.Proofs.Settings.Leaves
import DiscussionBoard.Proofs.Settings.Sources
import DiscussionBoard.Proofs.Subscription.Agreement
import DiscussionBoard.Proofs.Subscription.Blindness
import DiscussionBoard.Proofs.Subscription.Call
import DiscussionBoard.Proofs.Subscription.Clearing
import DiscussionBoard.Proofs.Subscription.Coherence
import DiscussionBoard.Proofs.Subscription.DiscussionChange
import DiscussionBoard.Proofs.Subscription.Elsewhere
import DiscussionBoard.Proofs.Subscription.Enrolment
import DiscussionBoard.Proofs.Subscription.Entries
import DiscussionBoard.Proofs.Subscription.Erasure
import DiscussionBoard.Proofs.Subscription.Failure
import DiscussionBoard.Proofs.Subscription.Fetching
import DiscussionBoard.Proofs.Subscription.ForumChange
import DiscussionBoard.Proofs.Subscription.Freshness
import DiscussionBoard.Proofs.Subscription.History
import DiscussionBoard.Proofs.Subscription.Independence
import DiscussionBoard.Proofs.Subscription.Interleaving
import DiscussionBoard.Proofs.Subscription.Locality
import DiscussionBoard.Proofs.Subscription.Memo
import DiscussionBoard.Proofs.Subscription.Notification
import DiscussionBoard.Proofs.Subscription.Outcome
import DiscussionBoard.Proofs.Subscription.Period
import DiscussionBoard.Proofs.Subscription.Reachable
import DiscussionBoard.Proofs.Subscription.Readings
import DiscussionBoard.Proofs.Subscription.Repetition
import DiscussionBoard.Proofs.Subscription.Resolution
import DiscussionBoard.Proofs.Subscription.Retry
import DiscussionBoard.Proofs.Subscription.Slot
import DiscussionBoard.Proofs.Subscription.Stored
import DiscussionBoard.Proofs.Subscription.Tearing
import DiscussionBoard.Proofs.Subscription.Undated
import DiscussionBoard.Proofs.Subscription.Views
import DiscussionBoard.Proofs.Table
import DiscussionBoard.Register
import DiscussionBoard.Seeding
import DiscussionBoard.Seeding.Log
import DiscussionBoard.Settings
import DiscussionBoard.Settings.Convert
import DiscussionBoard.Settings.Dotenv
import DiscussionBoard.Settings.LayerFile
import DiscussionBoard.Settings.Layers
import DiscussionBoard.Settings.Load
import DiscussionBoard.Settings.Path
import DiscussionBoard.Shelf
import DiscussionBoard.Subscription.Cache
import DiscussionBoard.Subscription.Change
import DiscussionBoard.Subscription.Desk
import DiscussionBoard.Subscription.Lookup
import DiscussionBoard.Subscription.Rows
import DiscussionBoard.Table
import DiscussionBoard.Text.Alphanumeric
import DiscussionBoard.Text.Blank
import DiscussionBoard.Text.Numeral
import DiscussionBoard.Viewer
import DiscussionBoard.Visibility
