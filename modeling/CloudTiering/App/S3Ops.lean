import CloudTiering.System.Kernel

/-!
# `s3_ops.c`: the S3 protocol

* `s3GetObjectIdXattrValue`: the key of a path, built in the thread-local buffer `s3_xattr_buf`.
* `s3PutObjectDataCallback`, `s3GetObjectDataCallback`: the data callbacks, on a `stdio` stream.
* `s3PutObject`, `s3GetObject`: one request of `libs3`, which calls a data callback again and again.
* `s3BucketExists`, `s3CreateBucket`: the requests about the bucket, with the loop over retries.
* `s3Upload`, `s3Download`: the transfer of a whole file, with the same loop.

A C string is the list of its bytes before the `'\0'`; a buffer that holds one is the list of all
its bytes, stale ones included.
-/

namespace CloudTiering

open Foundations

namespace App

/-- `S3_MAX_KEY_SIZE` of `libs3.h`. -/
def s3MaxKeySize : ℕ := 1024

/-- `S3_XATTR_SIZE`. -/
def s3XattrSize : ℕ := s3MaxKeySize + 1

/-! ## Object ids -/

/-- One character of a key: `'/'` becomes `'-'`. -/
def s3KeyChar (c : UInt8) : UInt8 := if c = 0x2f then 0x2d else c

/-- The loop of `s3_get_object_id_xattr_value`, with `n` of the `keyLen` iterations left. -/
def s3KeyLoop (path : Bytes) (keyLen : ℕ) : ℕ → Bytes → Bytes
  | 0, buf => buf
  | n + 1, buf =>
      let pos := keyLen - (n + 1)
      s3KeyLoop path keyLen n (buf.set pos (s3KeyChar (path.getD (keyLen - pos - 1) 0)))

/-- `s3_get_object_id_xattr_value`: the content of `s3_xattr_buf` afterwards, given the one
before. -/
def s3GetObjectIdXattrValue (path buf : Bytes) : Bytes :=
  let pathLen := path.length
  let keyLen := if pathLen > s3MaxKeySize then s3MaxKeySize else pathLen
  (s3KeyLoop path keyLen keyLen buf).set keyLen 0

/-- `s3_get_object_id_xattr_size`. -/
def s3GetObjectIdXattrSize : ℕ := s3XattrSize

/-! ## The data callbacks -/

/-- A `stdio` stream: the descriptor under it and its position. -/
structure Stream where
  fd : Fd
  pos : ℕ

/-- `fread(buffer, 1, n, file)`: the bytes read; the stream moves on. -/
def fread (file : Stream) (n : ℕ) : Sys (Bytes × Stream) := do
  let buffer ← sys (.fread file.fd file.pos n)
  return (buffer, { file with pos := file.pos + buffer.length })

/-- `fwrite(buffer, 1, n, file)`: the number of bytes written; the stream moves on. -/
def fwrite (file : Stream) (buffer : Bytes) : Sys (ℕ × Stream) := do
  let wrote ← sys (.fwrite file.fd file.pos buffer)
  return (wrote, { file with pos := file.pos + wrote })

/-- `struct s3_put_object_callback_data`. -/
structure S3PutObjectCallbackData where
  file : Stream
  contentLength : ℕ

/-- `s3_put_object_data_callback` for a positive buffer size: the bytes put into the buffer, whose
number is the return value, and the callback data afterwards. -/
def s3PutObjectDataCallback (bufferSize : ℕ) (data : S3PutObjectCallbackData) :
    Sys (Bytes × S3PutObjectCallbackData) := do
  if data.contentLength ≠ 0 then
    let toRead := if data.contentLength > bufferSize % 2 ^ 32 then bufferSize % 2 ^ 32
      else data.contentLength
    let (buffer, file) ← fread data.file toRead
    -- no more than `content_length` bytes have been read: the difference does not wrap around
    return (buffer, ⟨file, data.contentLength - buffer.length⟩)
  else
    return ([], data)

/-- `s3_get_object_data_callback`. -/
def s3GetObjectDataCallback (buffer : Bytes) (file : Stream) : Sys (S3Status × Stream) := do
  let (wrote, file) ← fwrite file buffer
  return (if wrote < buffer.length then .abortedByCallback else .ok, file)

/-! ## One request -/

/-- The end of `S3_put_object`: the status is handed to `s3_response_complete_callback`. -/
def s3PutObjectEnd (key got : Bytes) (data : S3PutObjectCallbackData) :
    Sys (S3Status × S3PutObjectCallbackData) := do
  return (← sys (.putEnd key got), data)

/-- The callbacks of `S3_put_object` for a content of length `n`, having obtained `got`: the
callback is called until `n` bytes are there, it returns `0`, or the attempt fails.  As every other
callback brings a byte, `n` of them are enough. -/
def s3PutObjectLoop (key : Bytes) (n : ℕ) :
    ℕ → Bytes → S3PutObjectCallbackData → Sys (S3Status × S3PutObjectCallbackData)
  | 0, got, data => s3PutObjectEnd key got data
  | fuel + 1, got, data => do
      if n ≤ got.length then
        s3PutObjectEnd key got data
      else
        match ← sys .putBuffer with
        | .error status => return (status, data)
        | .ok bufferSize =>
            let (buffer, data) ← s3PutObjectDataCallback bufferSize data
            if buffer.length = 0 then
              s3PutObjectEnd key got data
            else
              s3PutObjectLoop key n fuel (got ++ buffer) data

/-- `S3_put_object`, as `s3_upload` calls it. -/
def s3PutObject (key : Bytes) (data : S3PutObjectCallbackData) :
    Sys (S3Status × S3PutObjectCallbackData) :=
  s3PutObjectLoop key data.contentLength data.contentLength [] data

/-- The callbacks of `S3_get_object`, with `rest` of the object still to be delivered. -/
def s3GetObjectLoop : ℕ → Bytes → Stream → Sys (S3Status × Stream)
  | 0, _, file => do return (← sys .getEnd, file)
  | fuel + 1, rest, file => do
      if rest.length = 0 then
        return (← sys .getEnd, file)
      else
        match ← sys .getChunk with
        | .error status => return (status, file)
        | .ok n =>
            let (status, file) ← s3GetObjectDataCallback (rest.take n) file
            if status ≠ .ok then
              return (status, file)
            else
              s3GetObjectLoop fuel (rest.drop n) file

/-- `S3_get_object`, as `s3_download` calls it: the object is delivered from its beginning. -/
def s3GetObject (key : Bytes) (file : Stream) : Sys (S3Status × Stream) := do
  match ← sys (.getBegin key) with
  | .error status => return (status, file)
  | .ok object => s3GetObjectLoop object.length object file

/-- `do { request } while (S3_status_is_retryable(status) && --retries)`, where the decremented
`retries` becomes `0` after `n` further attempts; `s` is what the attempts share. -/
def s3Retry {β : Type} (request : β → Sys (S3Status × β)) : ℕ → β → Sys (S3Status × β)
  | 0, s => request s
  | n + 1, s => do
      let (status, s) ← request s
      if status.isRetryable then s3Retry request n s else return (status, s)

/-- How many times `--retries` can be evaluated before it gives `0`; an `int` wraps around. -/
def s3FurtherAttempts (retries : Int) : ℕ := ((retries - 1) % 2 ^ 32).toNat

/-! ## The bucket -/

/-- `s3_bucket_exists`, with the request `S3_test_bucket`; `retries` is `s3_operation_retries` of
the configuration. -/
def s3BucketExists (s3TestBucket : Sys S3Status) (retries : Int) : Sys Int := do
  let (status, _) ← s3Retry (fun _ => do return (← s3TestBucket, ())) (s3FurtherAttempts retries) ()
  -- true if exists; if not exist and on error - false
  return if status = .ok then 1 else 0

/-- `s3_create_bucket`, with the request `S3_create_bucket`. -/
def s3CreateBucket (s3CreateBucketRequest : Sys S3Status) (retries : Int) : Sys Int := do
  let (status, _) ← s3Retry (fun _ => do return (← s3CreateBucketRequest, ()))
    (s3FurtherAttempts retries) ()
  return if status ≠ .ok then -1 else 0

/-! ## Whole files -/

/-- `s3_upload`; `retries` is `s3_operation_retries` of the configuration. -/
def s3Upload (retries : Int) (fd : Fd) (objectId : Bytes) : Sys Int := do
  -- duplicate file descriptor to be able to close file stream
  match ← sys (.dup fd) with
  | .error _ => return -1
  | .ok dupFd =>
    match ← sys (.fstat dupFd) with
    | .error _ => return -1
    | .ok stSize =>
      match ← sys (.fdopen dupFd) with
      | .error _ => return -1
      | .ok _ =>
        let (status, _) ← s3Retry (s3PutObject (cString objectId)) (s3FurtherAttempts retries)
          ⟨⟨dupFd, 0⟩, stSize⟩
        let ret : Int := if status ≠ .ok then -1 else 0
        match ← sys (.fclose dupFd) with
        | .error _ => return -1
        | .ok _ => return ret

/-- `s3_download`. -/
def s3Download (retries : Int) (fd : Fd) (objectId : Bytes) : Sys Int := do
  match ← sys (.dup fd) with
  | .error _ => return -1
  | .ok dupFd =>
    match ← sys (.fdopen dupFd) with
    | .error _ => return -1
    | .ok _ =>
      let (status, _) ← s3Retry (s3GetObject (cString objectId)) (s3FurtherAttempts retries)
        ⟨dupFd, 0⟩
      let ret : Int := if status ≠ .ok then -1 else 0
      match ← sys (.fclose dupFd) with
      | .error _ => return -1
      | .ok _ => return ret

end App

end CloudTiering
