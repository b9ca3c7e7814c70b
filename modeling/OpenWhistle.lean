import OpenWhistle.Foundation.Contract
import OpenWhistle.Submission.Spent
import OpenWhistle.Cases.Retention
import OpenWhistle.Cases.History
import OpenWhistle.Threads.Order
import OpenWhistle.Threads.ClosedCase
import OpenWhistle.Threads.StatutoryTimes
import OpenWhistle.Deletion.FourEyes
import OpenWhistle.Accounts.Logout
import OpenWhistle.Accounts.Revocation
import OpenWhistle.Sso.Flows
import OpenWhistle.Identity.Disclosure
import OpenWhistle.Identity.OneRevealer
import OpenWhistle.Dashboard.Pages
import OpenWhistle.Reporter.Probing
import OpenWhistle.Records.TimeOfDay
import OpenWhistle.Records.Reply
import OpenWhistle.Deletion.Creators
import OpenWhistle.Accounts.Lifetime
import OpenWhistle.Reporter.StatusSession
import OpenWhistle.Reporter.Expiry
import OpenWhistle.Reporter.SignOut
import OpenWhistle.Accounts.Survivor
import OpenWhistle.Accounts.Administration
import OpenWhistle.RateLimit.Counters
import OpenWhistle.RateLimit.Attempts
import OpenWhistle.Foundation.Json
import OpenWhistle.Updates.Feed
import OpenWhistle.Updates.Advisories
import OpenWhistle.Branding.Snapshot
import OpenWhistle.Branding.Invalidation
import OpenWhistle.Foundation.CheckedInsert
import OpenWhistle.Links.CaseLinks
import OpenWhistle.Links.Graph
import OpenWhistle.Usernames.Creation
import OpenWhistle.Usernames.Unique
import OpenWhistle.Notices.Accounting
import OpenWhistle.Notices.Erasure
import OpenWhistle.Setup.Once
import OpenWhistle.Submission.Assignment
import OpenWhistle.Submission.OneId
import OpenWhistle.Submission.Wizard
import OpenWhistle.Attachments.Orientation
import OpenWhistle.Updates.Untrusted
import OpenWhistle.Attachments.Png
import OpenWhistle.Attachments.Jpeg
import OpenWhistle.Attachments.Webp
import OpenWhistle.Attachments.Jp2
import OpenWhistle.Attachments.JpegReader
import OpenWhistle.Attachments.Ooxml
import OpenWhistle.Attachments.OoxmlNames
import OpenWhistle.Attachments.OoxmlBound
import OpenWhistle.Attachments.Attributes
import OpenWhistle.Records.Statute
import OpenWhistle.Cases.Cutoff
import OpenWhistle.Dashboard.AckRate
import OpenWhistle.Accounts.TotpOnce
import OpenWhistle.Notices.Reminders
import OpenWhistle.Attachments.PdfCost
import OpenWhistle.Attachments.Uploads
import OpenWhistle.Threads.Migration
import OpenWhistle.Updates.Versions
import OpenWhistle.Foundation.LeastIncreasing
import OpenWhistle.Dashboard.CaseQuery
import OpenWhistle.Deletion.Reachability
import OpenWhistle.Foundation.Loop
import OpenWhistle.Attachments.Turns
import OpenWhistle.Middleware.UploadBudget
import OpenWhistle.Foundation.Savepoints
import OpenWhistle.Records.CreateReport
import OpenWhistle.Records.Filing
import OpenWhistle.RateLimit.Spraying
import OpenWhistle.Branding.Images
import OpenWhistle.Branding.Orphans
import OpenWhistle.Attachments.Rekey
import OpenWhistle.Keys.Rotation
import OpenWhistle.Submission.SoundDrafts
import OpenWhistle.Telemetry.OncePerDay
import OpenWhistle.Telemetry.Consent
import OpenWhistle.Foundation.JsonIndent
import OpenWhistle.Integrity.Files
import OpenWhistle.Integrity.Manifest
import OpenWhistle.Foundation.Csv
import OpenWhistle.Foundation.JsonUnicode
import OpenWhistle.Audit.Trail
import OpenWhistle.Audit.Export
import OpenWhistle.Foundation.Percent
import OpenWhistle.Foundation.Base64
import OpenWhistle.Attachments.Disposition
import OpenWhistle.Keys.Reseal
import OpenWhistle.Foundation.Framing
import OpenWhistle.Attachments.Scanning
import OpenWhistle.Foundation.Url
import OpenWhistle.Reporter.Language
import OpenWhistle.Attachments.Custody
import OpenWhistle.Catalogue.Categories
