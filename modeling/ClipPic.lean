import ClipPic.Account.AppleNonce
import ClipPic.Account.CachedProfile
import ClipPic.Account.Commute
import ClipPic.Account.Crashes
import ClipPic.Account.Noninterference
import ClipPic.Account.Ownership
import ClipPic.Account.ProfileRoundTrip
import ClipPic.Account.RandomNonce
import ClipPic.Account.Session
import ClipPic.Account.SignOut
import ClipPic.Documents.Comments
import ClipPic.Documents.Faithful
import ClipPic.Documents.Permanent
import ClipPic.Documents.Profiles
import ClipPic.Documents.Publishing
import ClipPic.Documents.Readable
import ClipPic.Documents.References
import ClipPic.Documents.Schema
import ClipPic.Documents.Snapshots
import ClipPic.Documents.Visible
import ClipPic.Failures
import ClipPic.Home.BlockedAuthors
import ClipPic.Home.Feed
import ClipPic.Home.FeedOrder
import ClipPic.Layout.Balance
import ClipPic.Layout.Batches
import ClipPic.Layout.CurrentItems
import ClipPic.Layout.Geometry
import ClipPic.Layout.Height
import ClipPic.Lists.Atomic
import ClipPic.Lists.Blocked
import ClipPic.Lists.LostUpdate
import ClipPic.Lists.OneEntry
import ClipPic.Lists.Toggle
import ClipPic.Networking
import ClipPic.Profile.Grid
import ClipPic.ProgressHUD
import ClipPic.Quiescence
import ClipPic.Reports
import ClipPic.Screens.CommentDates
import ClipPic.Screens.Creator
import ClipPic.Screens.Navigation
import ClipPic.Screens.Publish
import ClipPic.Uploads
