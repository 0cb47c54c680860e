import Parley.Place
import Parley.Playback.Player
import Parley.Proofs.Condition.Conjoin
import Parley.Proofs.Text.Cut
import Parley.Rehearsal.Traffic
import Parley.Rehearsal.Ensemble
import Parley.Remark
import Parley.Settings
import Parley.Snapshot
import Parley.Stage.ViewFields
import Parley.Stage.Basic
import Parley.Script.Check
import Parley.Json.Shown
import Parley.Json.Writer
import Parley.Bus.Host
import Parley.Json.Reader
import Parley.Reveal.Amount
import Parley.Reveal.Session
import Parley.Proofs.Script.Writer
import Parley.Proofs.Script.RoundTrip
import Parley.Proofs.Playback.Settling
import Parley.Proofs.Playback.Coherence
import Parley.Proofs.Script.Check
import Parley.Proofs.Playback.SoundStory
import Parley.Proofs.Script.Following
import Parley.Proofs.Playback.Visits
import Parley.Proofs.Playback.Deeds
import Parley.Proofs.Playback.Reentrance
import Parley.Proofs.Bus.Order
import Parley.Proofs.Playback.Unread
import Parley.Proofs.Playback.Replay
import Parley.Proofs.Playback.Onlookers
import Parley.Proofs.Pacts
import Parley.Proofs.Playback.Interludes
import Parley.Proofs.Playback.Routes
import Parley.Proofs.Reveal.Laws
import Parley.Proofs.Stage.Cues
import Parley.Proofs.Playback.Closing
import Parley.Proofs.Playback.Texts
import Parley.Proofs.Stage.Curtain
import Parley.Proofs.Stage.Faithful
import Parley.Proofs.Stage.Reveals
import Parley.Proofs.Alone
import Parley.Proofs.Malformed
import Parley.Proofs.Playback.Barred
import Parley.Proofs.Playback.Governed
import Parley.Proofs.Playback.Faults
import Parley.Proofs.Playback.Landing
import Parley.Proofs.Playback.Offers
import Parley.Proofs.Playback.Progress
import Parley.Proofs.Script.Complaints
import Parley.Proofs.Totals
import Parley.Proofs.Stage.Keys
import Parley.Proofs.Stage.Ways
import Parley.Proofs.Bus.Subscriptions
import Parley.Proofs.Bus.Recovery
import Parley.Proofs.Reveal.Pulls
import Parley.Proofs.Reveal.Outdated
import Parley.Proofs.Condition.Grouping
import Parley.Proofs.Literal
