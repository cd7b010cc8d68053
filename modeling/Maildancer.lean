import Maildancer.Address.Agreement
import Maildancer.Admin.Keyring
import Maildancer.Auth.Throttle
import Maildancer.Connfork.Capacity
import Maildancer.Deliver.Conservation
import Maildancer.Deliver.Placement
import Maildancer.Domains.Confinement
import Maildancer.HeaderEnd
import Maildancer.Identity.Allocation
import Maildancer.Imap.NumberSets
import Maildancer.Imap.OneScan
import Maildancer.Imap.SearchKeys
import Maildancer.Imap.Transparency
import Maildancer.MailRemote.Downgrade
import Maildancer.MailRemote.Permanence
import Maildancer.MailSession.Arrivals
import Maildancer.Maildir.CacheCoherence
import Maildancer.Maildir.ExpungeMarks
import Maildancer.Maildir.ManyRecipients
import Maildancer.Manager.Isolation
import Maildancer.Oidc.Tokens
import Maildancer.PeerFilter.KnownGood
import Maildancer.Pop3.Gating
import Maildancer.Pop3.Numbers
import Maildancer.Queue.Accepted
import Maildancer.Queue.AllOrNothing
import Maildancer.Scheduler.CrashSafety
import Maildancer.Scheduler.Loss
import Maildancer.Scheduler.Outbound
import Maildancer.Scheduler.Starvation
import Maildancer.Smtpd.OneHop
import Maildancer.Smtpd.Sender
import Maildancer.Smtpd.AuthGrammar
import Maildancer.Smtpd.SpamFields
import Maildancer.Smtpd.Verdicts
import Maildancer.UidList.History
import Maildancer.Webadmin
