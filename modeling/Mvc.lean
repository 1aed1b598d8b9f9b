import Mvc.Main
import Mvc.Rehearsal.Application
import Mvc.Rehearsal.Controllers
import Mvc.Rehearsal.Log
import Mvc.Rehearsal.Models
import Mvc.Rehearsal.Session
import Mvc.Rehearsal.Signals
import Mvc.Rehearsal.Worker
import Mvc.Ticker
import Mvc.Proofs.Accounting
import Mvc.Proofs.Enabling
import Mvc.Proofs.Exclusion
import Mvc.Proofs.Validity
import Mvc.Proofs.Feed
import Mvc.Proofs.Reentrancy
import Mvc.Proofs.Shutting
import Mvc.Proofs.Topology
import Mvc.Proofs.Nesting
import Mvc.Proofs.Saving
import Mvc.Proofs.Replaying
import Mvc.Proofs.Overtaking
import Mvc.Proofs.Upkeep
import Mvc.Proofs.Heralds
import Mvc.Proofs.Lifecycle
import Mvc.Proofs.Presentation
import Mvc.Proofs.Journeys
import Mvc.Proofs.Seeding
import Mvc.Proofs.Staging
import Mvc.Proofs.Edits
import Mvc.Proofs.Returning
import Mvc.Proofs.WriteLog
import Mvc.Proofs.Handles
import Mvc.Proofs.Exhaustion
import Mvc.Proofs.Workday
import Mvc.Proofs.Timestamps
import Mvc.Proofs.Guarding
import Mvc.Proofs.Themes
import Mvc.Proofs.Refusals
import Mvc.Proofs.Titles
import Mvc.Proofs.Tidings
import Mvc.Proofs.Redundancy
import Mvc.Proofs.Routing
import Mvc.Proofs.Spellings
import Mvc.Proofs.Commands
import Mvc.Proofs.Dumps
