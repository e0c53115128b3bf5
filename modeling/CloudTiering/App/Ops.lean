import CloudTiering.App.File
import CloudTiering.App.S3Ops

/-!
# `ops.c`: uploading and downloading a file

`uploadFile` and `downloadFile` are `upload_file` and `download_file`, call by call and with every
error path; the log messages have no effect and are left out.  They work for any `ops_t`: `s3Ops` is
the one that `get_ops()` can return, and `storeOps` is the same with each transfer taken as one
call.

The thread-local buffer behind `get_object_id_xattr_value` is passed in and out explicitly.
-/

namespace CloudTiering

open Foundations

namespace App

/-- `ops_t`: what `upload_file` and `download_file` use of it. -/
structure Ops where
  download : Fd → Bytes → Sys Int
  upload : Fd → Bytes → Sys Int
  /-- The content of the buffer that the returned pointer points to, from the path and the content
  before. -/
  getObjectIdXattrValue : Bytes → Bytes → Bytes
  getObjectIdXattrSize : ℕ

/-- `s3_ops`, for a configured number of retries. -/
def s3Ops (retries : Int) : Ops where
  download := s3Download retries
  upload := s3Upload retries
  getObjectIdXattrValue := s3GetObjectIdXattrValue
  getObjectIdXattrSize := s3GetObjectIdXattrSize

/-- `s3_ops` with each transfer taken as one call that succeeds or fails. -/
def storeOps : Ops where
  download := fun fd objectId => do
    match ← sys (.downloadObject fd (cString objectId)) with
    | .error _ => return -1
    | .ok _ => return 0
  upload := fun fd objectId => do
    match ← sys (.uploadObject fd (cString objectId)) with
    | .error _ => return -1
    | .ok _ => return 0
  getObjectIdXattrValue := s3GetObjectIdXattrValue
  getObjectIdXattrSize := s3GetObjectIdXattrSize

/-- `close_handle_err`: an error is only logged. -/
def closeHandleErr (fd : Fd) : Sys Unit := do
  let _ ← sys (.closeFile fd)
  return ()

/-- `upload_file` on a local file that this thread has locked: everything behind the location check.
`objectId` is the buffer that `get_object_id_xattr_value` has filled. -/
def uploadLocalFile (ops : Ops) (fd : Fd) (objectId : Bytes) : Sys Int := do
  -- upload file's data to remote storage
  if (← ops.upload fd objectId) = -1 then
    let _ ← unlockFile fd
    closeHandleErr fd
    return -1
  -- set object id to a corresponding attribute
  if (← setXattr fd .objectId (objectId.take ops.getObjectIdXattrSize) .create) = -1 then
    let _ ← unlockFile fd
    closeHandleErr fd
    return -1
  -- set file's location information
  if (← setXattr fd .stub [] .create) = -1 then
    let _ ← removeXattr fd .objectId
    let _ ← unlockFile fd
    closeHandleErr fd
    return -1
  -- get stat structure to determine the file size
  match ← sys (.fstat fd) with
  | .error _ =>
    let _ ← unlockFile fd
    closeHandleErr fd
    return -1
  | .ok stSize =>
    -- truncate file to length 0
    match ← sys (.ftruncate fd 0) with
    | .error _ =>
      let _ ← removeXattr fd .objectId
      let _ ← removeXattr fd .stub
      let _ ← unlockFile fd
      closeHandleErr fd
      return -1
    | .ok _ =>
      -- make the file sparse by extending it to the original length
      match ← sys (.ftruncate fd stSize) with
      | .error _ =>
        let _ ← removeXattr fd .objectId
        let _ ← removeXattr fd .stub
        let _ ← unlockFile fd
        closeHandleErr fd
        return -1
      | .ok _ =>
        let _ ← unlockFile fd
        closeHandleErr fd
        return 0

/-- `upload_file`: the return value and the content of the id buffer afterwards. -/
def uploadFile (ops : Ops) (path buf : Bytes) : Sys (Int × Bytes) := do
  match ← sys (.openFile path) with
  | .error _ => return (-1, buf)
  | .ok fd =>
    -- set lock to file
    if (← tryLockFile fd) = -1 then
      closeHandleErr fd
      return (-1, buf)
    -- check file's location; `!` takes `0` only
    if (← isLocalFileFd fd) = 0 then
      let _ ← unlockFile fd
      closeHandleErr fd
      return (0, buf)
    -- calculate object id (the key) for the remote object storage
    let objectId := ops.getObjectIdXattrValue path buf
    return (← uploadLocalFile ops fd objectId, objectId)

/-- `download_file` on a remote file that this thread has locked: everything behind the location
check. -/
def downloadRemoteFile (ops : Ops) (fd : Fd) : Sys Int := do
  let (ret, objectId) ← getXattr fd .objectId ops.getObjectIdXattrSize
  if ret = -1 then
    let _ ← unlockFile fd
    closeHandleErr fd
    return -1
  -- download file's data to local storage
  if (← ops.download fd objectId) = -1 then
    let _ ← unlockFile fd
    closeHandleErr fd
    return -1
  -- remove file's location information
  if (← removeXattr fd .stub) = -1 then
    let _ ← unlockFile fd
    closeHandleErr fd
    return -1
  if (← removeXattr fd .objectId) = -1 then
    let _ ← unlockFile fd
    closeHandleErr fd
    return -1
  let _ ← unlockFile fd
  closeHandleErr fd
  return 0

/-- `download_file`. -/
def downloadFile (ops : Ops) (path : Bytes) : Sys Int := do
  match ← sys (.openFile path) with
  | .error _ => return -1
  | .ok fd =>
    -- set lock to file
    if (← tryLockFile fd) = -1 then
      closeHandleErr fd
      return -1
    -- check file's location; an error counts as local
    if (← isLocalFileFd fd) ≠ 0 then
      let _ ← unlockFile fd
      closeHandleErr fd
      return 0
    downloadRemoteFile ops fd

end App

end CloudTiering
