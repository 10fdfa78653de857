import Pinpoint.Proofs.Checked.Finding
import Pinpoint.Proofs.Checked.Window
import Pinpoint.Proofs.Excerpt.MiddleLine
import Pinpoint.Proofs.Excerpt.Nearby
import Pinpoint.Proofs.Excerpt.WellFormed
import Pinpoint.Proofs.Json.Acceptance
import Pinpoint.Proofs.Json.Codecs
import Pinpoint.Proofs.Location.Order
import Pinpoint.Proofs.Session.Causes
import Pinpoint.Proofs.Session.EmptySource
import Pinpoint.Proofs.Session.HiddenLocation
import Pinpoint.Proofs.Session.Layout
import Pinpoint.Proofs.Session.LineEnds
import Pinpoint.Proofs.Session.Summary
import Pinpoint.Proofs.Settings.Document
