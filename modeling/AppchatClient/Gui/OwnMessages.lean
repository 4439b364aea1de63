import AppchatClient.Cache.RoundTrip
import AppchatClient.Gui.SendClicked

/-!
# The user's messages in the cache

A message that the user has sent comes back from the server and is saved. Its
text is not empty, and its time comes from the clock: also a time stamp across
midnight has the fields of two instants, so it has a code of fourteen digits
while the years have four. What is left are the apostrophes and the NULs.
-/

namespace AppchatClient.Gui.OwnMessages

open AppchatClient.Protocol AppchatClient.Lib.Runs AppchatClient.Gui.SendClicked
open AppchatClient.Cache.SqliteCache AppchatClient.Cache.Statements
open AppchatClient.Cache.Refinement AppchatClient.Cache.DateTimeDomain
open AppchatClient.Cache.RoundTrip

set_option autoImplicit false

variable {before after : Composer} {action : ComposerAction}

end AppchatClient.Gui.OwnMessages
