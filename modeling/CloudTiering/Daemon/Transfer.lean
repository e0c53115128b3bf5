import CloudTiering.App.Ops

/-!
# `daemon.c`: the loop of the transfer threads

The download thread and the upload thread run `transfer_files_loop`, which never returns: one
iteration of it is a program.  The primary download queue is shared with the clients; what an
attempt on a secondary queue yields is passed in.
-/

namespace CloudTiering

open Foundations App

namespace Daemon

/-- One iteration of `transfer_files_loop`, and what `action` returned.  `primary` says whether
there is a primary queue; `secondary` is the element that the secondary queue yields. -/
def transferFilesIteration (primary : Bool) (secondary : Option Bytes) (action : Bytes → Sys Int) :
    Sys (Option Int) := do
  let popped ← if primary then sys .queueTryPop else pure none
  match popped.or secondary with
  | none => return none
  | some data => return some (← action (cString data))

/-- An iteration of `download_file_routine`. -/
def downloadFileRoutine (ops : Ops) (secondary : Option Bytes) : Sys (Option Int) :=
  transferFilesIteration true secondary (downloadFile ops)

/-- An iteration of `upload_file_routine`: there is no primary upload queue.  `buf` is the thread's
id buffer. -/
def uploadFileRoutine (ops : Ops) (buf : Bytes) (secondary : Option Bytes) : Sys (Option Int) :=
  transferFilesIteration false secondary fun path => do return (← uploadFile ops path buf).1

end Daemon

end CloudTiering
