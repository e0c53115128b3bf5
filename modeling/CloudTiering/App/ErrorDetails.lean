import CloudTiering.Foundations.TruncatedText
import CloudTiering.System.World

/-!
# The text of an error

`s3_response_complete_callback` prints what the service says about an error into the buffer
`error_details` of the callback data, one `snprintf` after the other.  `len` adds up the lengths of
what was to be printed, not of what has been; beyond the buffer, `sizeof(cb_d->error_details) - len`
wraps around.

* `s3ResponseCompleteCallback`: the callback, with a record of its `snprintf` calls.
* `pieces`: what they print, in order.
* `DetailsKept`: the calls stay inside the buffer, and it ends as the beginning of the text.
* `detailsKept_iff`: so it is just if all pieces but the last fit, and without a piece if the buffer
  was empty.
-/

namespace CloudTiering

open Foundations

namespace App

/-! ## The callback -/

/-- `S3ErrorDetails`; the extra details are the names and values. -/
structure S3ErrorDetails where
  message : Option CStr := none
  resource : Option CStr := none
  furtherDetails : Option CStr := none
  extraDetails : List (CStr × CStr) := []

/-- `sizeof(cb_d->error_details)`. -/
def errorDetailsSize : ℕ := 4096

/-- `struct s3_cb_data`: the status, and the memory from the start of `error_details` on. -/
structure S3CbData where
  status : S3Status
  errorDetails : ℕ → UInt8

/-- The buffer `error_details`. -/
def S3CbData.buffer (d : S3CbData) : Bytes := peek (2 ^ 64) d.errorDetails 0 errorDetailsSize

/-- A call of `snprintf`: where it prints, the size passed to it, and the number of bytes it
writes. -/
structure SnprintfCall where
  offset : ℕ
  size : ℕ
  written : ℕ

/-- The chain of calls: the memory, the variable `len`, the calls so far. -/
structure DetailsChain where
  errorDetails : ℕ → UInt8
  len : ℕ
  calls : List SnprintfCall

/-- `len += snprintf(&(cb_d->error_details[len]), sizeof(cb_d->error_details) - len, ..)`; the
difference is taken in `size_t`.  `snprintf` returns the length of the whole text.  `len` is an
`int`, whose sums beyond its range C leaves undefined: here it has no range. -/
def DetailsChain.snprintf (s : DetailsChain) (text : Bytes) : DetailsChain :=
  let size := (((errorDetailsSize : ℤ) - s.len) % 2 ^ 64).toNat
  let out := truncated 0 size text
  { errorDetails := poke (2 ^ 64) s.errorDetails s.len out
    len := s.len + text.length
    calls := s.calls ++ [⟨s.len, size, out.length⟩] }

/-- `"  Message: %s\n"`, and the same for the other two. -/
def labelled (label : String) (value : CStr) : Bytes := ascii label ++ value.1 ++ ascii "\n"

/-- `"    %s: %s\n"`. -/
def extraDetail (d : CStr × CStr) : Bytes :=
  ascii "    " ++ d.1.1 ++ ascii ": " ++ d.2.1 ++ ascii "\n"

/-- A detail that may be missing. -/
def DetailsChain.snprintfPresent (s : DetailsChain) (label : String) : Option CStr → DetailsChain
  | none => s
  | some value => s.snprintf (labelled label value)

/-- The loop over the extra details. -/
def DetailsChain.extraDetails (s : DetailsChain) : List (CStr × CStr) → DetailsChain
  | [] => s
  | d :: rest => (s.snprintf (extraDetail d)).extraDetails rest

/-- `s3_response_complete_callback`: the callback data afterwards, and the calls of `snprintf`. -/
def s3ResponseCompleteCallback (status : S3Status) (errorDetails : Option S3ErrorDetails)
    (cbD : S3CbData) : S3CbData × List SnprintfCall :=
  let s : DetailsChain := ⟨cbD.errorDetails, 0, []⟩
  let s := match errorDetails with
    | none => s
    | some details =>
      let s := s.snprintfPresent "  Message: " details.message
      let s := s.snprintfPresent "  Resource: " details.resource
      let s := s.snprintfPresent "  Further Details: " details.furtherDetails
      if details.extraDetails.length ≠ 0 then
        (s.snprintf (ascii "  Extra Details:\n")).extraDetails details.extraDetails
      else s
  (⟨status, s.errorDetails⟩, s.calls)

/-! ## The pieces -/

/-- What is printed for the details. -/
def S3ErrorDetails.pieces (details : S3ErrorDetails) : List Bytes :=
  (details.message.map (labelled "  Message: ")).toList ++
    (details.resource.map (labelled "  Resource: ")).toList ++
    (details.furtherDetails.map (labelled "  Further Details: ")).toList ++
    (if details.extraDetails.length ≠ 0 then
      ascii "  Extra Details:\n" :: details.extraDetails.map extraDetail else [])

/-- What is printed; nothing if there are no details. -/
def pieces : Option S3ErrorDetails → List Bytes
  | none => []
  | some details => details.pieces

theorem labelled_ne_nil (label : String) (value : CStr) : labelled label value ≠ [] :=
  List.append_ne_nil_of_right_ne_nil _ (by decide)

theorem extraDetail_ne_nil (d : CStr × CStr) : extraDetail d ≠ [] :=
  List.append_ne_nil_of_right_ne_nil _ (by decide)

/-- Every piece has text. -/
theorem ne_nil_of_mem_pieces {errorDetails : Option S3ErrorDetails} {p : Bytes}
    (h : p ∈ pieces errorDetails) : p ≠ [] := by
  cases errorDetails with
  | none => exact absurd h List.not_mem_nil
  | some details =>
    rcases List.mem_append.mp h with h | h
    · simp only [List.mem_append, Option.mem_toList, Option.map_eq_some_iff] at h
      rcases h with (⟨v, -, rfl⟩ | ⟨v, -, rfl⟩) | ⟨v, -, rfl⟩
      · exact labelled_ne_nil _ v
      · exact labelled_ne_nil _ v
      · exact labelled_ne_nil _ v
    · split at h
      · rcases List.mem_cons.mp h with rfl | h
        · decide
        · obtain ⟨d, -, rfl⟩ := List.mem_map.mp h
          exact extraDetail_ne_nil d
      · exact absurd h List.not_mem_nil

theorem pieces_eq_nil_of_flatten {errorDetails : Option S3ErrorDetails}
    (h : (pieces errorDetails).flatten = []) : pieces errorDetails = [] := by
  refine List.eq_nil_iff_forall_not_mem.mpr fun p hp => ?_
  exact ne_nil_of_mem_pieces hp (List.flatten_eq_nil_iff.mp h p hp)

theorem snprintfPresent_eq (s : DetailsChain) (label : String) (value : Option CStr) :
    s.snprintfPresent label value =
      (value.map (labelled label)).toList.foldl DetailsChain.snprintf s := by
  cases value with
  | none => rfl
  | some value => rfl

theorem extraDetails_eq (s : DetailsChain) (l : List (CStr × CStr)) :
    s.extraDetails l = (l.map extraDetail).foldl DetailsChain.snprintf s := by
  induction l generalizing s with
  | nil => rfl
  | cons d rest ih => exact ih (s.snprintf (extraDetail d))

/-- The callback prints the pieces in order. -/
theorem s3ResponseCompleteCallback_eq (status : S3Status) (errorDetails : Option S3ErrorDetails)
    (cbD : S3CbData) :
    s3ResponseCompleteCallback status errorDetails cbD =
      (⟨status, ((pieces errorDetails).foldl DetailsChain.snprintf
          ⟨cbD.errorDetails, 0, []⟩).errorDetails⟩,
        ((pieces errorDetails).foldl DetailsChain.snprintf ⟨cbD.errorDetails, 0, []⟩).calls) := by
  cases errorDetails with
  | none => rfl
  | some details =>
    simp only [s3ResponseCompleteCallback, pieces, S3ErrorDetails.pieces, List.foldl_append,
      snprintfPresent_eq]
    split
    · rw [extraDetails_eq, List.foldl_cons]
    · rfl

/-! ## The chain -/

section

variable {s : DetailsChain} {text piece : Bytes}

/-- The call does not go beyond the buffer, and its size is what is left of it. -/
structure SnprintfCall.Inside (c : SnprintfCall) : Prop where
  offset_le : c.offset ≤ errorDetailsSize
  size_eq : c.size = errorDetailsSize - c.offset
  written_le : c.offset + c.written ≤ errorDetailsSize

theorem snprintf_eq (hlen : s.len ≤ errorDetailsSize) :
    s.snprintf piece =
      { errorDetails :=
        poke (2 ^ 64) s.errorDetails s.len (truncated 0 (errorDetailsSize - s.len) piece)
        len := s.len + piece.length
        calls := s.calls ++ [⟨s.len, errorDetailsSize - s.len,
          (truncated 0 (errorDetailsSize - s.len) piece).length⟩] } := by
  have hsize : (((errorDetailsSize : ℤ) - s.len) % 2 ^ 64).toNat = errorDetailsSize - s.len := by
    rw [Int.emod_eq_of_lt (by omega) (by simp only [errorDetailsSize]; omega)]
    omega
  simp only [DetailsChain.snprintf, hsize]

/-- The text so far is in the buffer, as far as it goes; before the first piece the buffer is
arbitrary. -/
structure Printed (text : Bytes) (s : DetailsChain) : Prop where
  len : s.len = text.length
  inside : ∀ c ∈ s.calls, c.Inside
  holds : text ≠ [] → HoldsText (2 ^ 64) errorDetailsSize 0 s.errorDetails text

/-- **One call**, as long as `len` has not passed the end of the buffer. -/
theorem Printed.snprintf (h : Printed text s) (hlen : text.length ≤ errorDetailsSize) :
    Printed (text ++ piece) (s.snprintf piece) := by
  rw [snprintf_eq (h.len ▸ hlen), h.len]
  refine ⟨(List.length_append).symm, ?_, fun _ => ?_⟩
  · intro c hc
    rcases List.mem_append.mp hc with hc | hc
    · exact h.inside c hc
    · obtain rfl := List.mem_singleton.mp hc
      have hwritten : (truncated 0 (errorDetailsSize - text.length) piece).length ≤
        errorDetailsSize - text.length := length_truncated_le
      refine ⟨hlen, rfl, ?_⟩
      dsimp only
      omega
  · rcases Nat.lt_or_eq_of_le hlen with hlt | heq
    · refine HoldsText.of_lt (by decide) hlt ?_
      by_cases hnil : text = []
      · rw [hnil]
        rfl
      · exact (h.holds hnil).peek_eq hlt
    · refine HoldsText.of_full heq (h.holds fun hnil => ?_)
      rw [hnil] at heq
      exact absurd heq (by decide)

/-- **The chain**, as long as all pieces but the last end within the buffer. -/
theorem Printed.foldl (h : Printed text s) (ps : List Bytes)
    (hfit : ps ≠ [] → text.length + ps.dropLast.flatten.length ≤ errorDetailsSize) :
    Printed (text ++ ps.flatten) (ps.foldl DetailsChain.snprintf s) := by
  induction ps generalizing text s with
  | nil =>
    rw [List.flatten_nil, List.append_nil]
    exact h
  | cons p ps ih =>
    have hle := hfit (List.cons_ne_nil p ps)
    rw [List.flatten_cons, ← List.append_assoc]
    refine ih (h.snprintf (by omega)) fun hps => ?_
    rw [List.dropLast_cons_of_ne_nil hps, List.flatten_cons, List.length_append] at hle
    rw [List.length_append]
    omega

/-- The last call of a chain prints behind all pieces but the last. -/
theorem exists_last_call (s : DetailsChain) {ps : List Bytes} (hps : ps ≠ []) :
    ∃ c ∈ (ps.foldl DetailsChain.snprintf s).calls,
      c.offset = s.len + ps.dropLast.flatten.length := by
  induction ps generalizing s with
  | nil => exact absurd rfl hps
  | cons p ps ih =>
    by_cases hnil : ps = []
    · rw [hnil]
      exact ⟨_, List.mem_append_right _ (List.mem_singleton_self _), rfl⟩
    · obtain ⟨c, hc, hoffset⟩ := ih (s.snprintf p) hnil
      refine ⟨c, hc, ?_⟩
      rw [hoffset, List.dropLast_cons_of_ne_nil hnil, List.flatten_cons, List.length_append]
      exact Nat.add_assoc _ _ _

end

/-! ## The buffer -/

/-- A C string ends at the first `'\0'` at the latest. -/
theorem cString_append_nul (b rest : Bytes) : cString (b ++ 0 :: rest) <+: b := by
  induction b with
  | nil => exact List.nil_prefix
  | cons c b ih =>
    rw [List.cons_append, cString, List.takeWhile_cons]
    split
    · exact (List.prefix_cons_inj c).mpr ih
    · exact List.nil_prefix

/-- The empty string in a buffer. -/
theorem cString_cons_eq_nil {c : UInt8} {rest : Bytes} : cString (c :: rest) = [] ↔ c = 0 := by
  rw [cString, List.takeWhile_cons]
  split
  · rename_i h
    exact iff_of_false (List.cons_ne_nil _ _) (bne_iff_ne.mp h)
  · rename_i h
    exact iff_of_true rfl (by simpa using h)

theorem S3CbData.buffer_eq_cons (d : S3CbData) :
    d.buffer = d.errorDetails 0 :: peek (2 ^ 64) d.errorDetails 1 4095 := by
  rw [S3CbData.buffer, show errorDetailsSize = 1 + 4095 from rfl, peek_append, peek_one,
    Nat.zero_mod, Nat.zero_add, List.singleton_append]

/-- A text that has been printed: the buffer ends as a C string, which is the beginning of the
text. -/
theorem Printed.buffer {status : S3Status} {text : Bytes} {s : DetailsChain} (h : Printed text s)
    (htext : text ≠ []) :
    0 ∈ (⟨status, s.errorDetails⟩ : S3CbData).buffer ∧
      cString (⟨status, s.errorDetails⟩ : S3CbData).buffer <+: text := by
  obtain ⟨rest, hrest⟩ := (h.holds htext).peek_buffer (by decide)
  rw [S3CbData.buffer, hrest]
  refine ⟨List.mem_append_right _ List.mem_cons_self, ?_⟩
  exact (cString_append_nul _ rest).trans (List.take_prefix _ _)

/-- A buffer that holds the empty string. -/
theorem S3CbData.buffer_of_zero {d : S3CbData} (h : d.errorDetails 0 = 0) :
    0 ∈ d.buffer ∧ cString d.buffer <+: [] := by
  rw [S3CbData.buffer_eq_cons, h, cString_cons_eq_nil.mpr rfl]
  exact ⟨List.mem_cons_self, List.nil_prefix⟩

/-- What the callback should do: no call goes beyond the buffer, and the buffer ends as a C string
that is the beginning of the whole text. -/
structure DetailsKept (status : S3Status) (errorDetails : Option S3ErrorDetails) (cbD : S3CbData) :
    Prop where
  inside : ∀ c ∈ (s3ResponseCompleteCallback status errorDetails cbD).2, c.Inside
  terminated : 0 ∈ (s3ResponseCompleteCallback status errorDetails cbD).1.buffer
  begins : cString (s3ResponseCompleteCallback status errorDetails cbD).1.buffer <+:
    (pieces errorDetails).flatten

/-- **The error details.**  The callback stays inside its buffer and leaves the beginning of the
text there just if all pieces but the last fit into the buffer together, and, without a piece, if
the buffer held the empty string before. -/
theorem detailsKept_iff (status : S3Status) (errorDetails : Option S3ErrorDetails)
    (cbD : S3CbData) :
    DetailsKept status errorDetails cbD ↔
      (pieces errorDetails).dropLast.flatten.length ≤ errorDetailsSize ∧
      (pieces errorDetails = [] → cbD.errorDetails 0 = 0) := by
  have heq := s3ResponseCompleteCallback_eq status errorDetails cbD
  constructor
  · rintro ⟨hinside, -, hbegins⟩
    rw [heq] at hinside hbegins
    constructor
    · by_cases hnil : pieces errorDetails = []
      · rw [hnil]
        exact Nat.zero_le _
      · obtain ⟨c, hc, hoffset⟩ := exists_last_call ⟨cbD.errorDetails, 0, []⟩ hnil
        have hle := (hinside c hc).offset_le
        rwa [hoffset, Nat.zero_add] at hle
    · intro hnil
      rw [hnil, List.flatten_nil, S3CbData.buffer_eq_cons, List.prefix_nil,
        cString_cons_eq_nil] at hbegins
      exact hbegins
  · rintro ⟨hfit, hempty⟩
    have hstart : Printed [] ⟨cbD.errorDetails, 0, []⟩ :=
      ⟨rfl, fun _ hc => absurd hc List.not_mem_nil, fun h => absurd rfl h⟩
    have hend := hstart.foldl (pieces errorDetails) fun _ => by
      rwa [List.length_nil, Nat.zero_add]
    rw [List.nil_append] at hend
    have hbuffer : 0 ∈ (s3ResponseCompleteCallback status errorDetails cbD).1.buffer ∧
        cString (s3ResponseCompleteCallback status errorDetails cbD).1.buffer <+:
          (pieces errorDetails).flatten := by
      rw [heq]
      by_cases hnil : (pieces errorDetails).flatten = []
      · have hpieces := pieces_eq_nil_of_flatten hnil
        rw [hpieces]
        exact S3CbData.buffer_of_zero (hempty hpieces)
      · exact hend.buffer hnil
    refine ⟨?_, hbuffer.1, hbuffer.2⟩
    rw [heq]
    exact hend.inside

/-- A message of the size of the buffer, and a resource. -/
def longMessage : S3ErrorDetails where
  message := some
    ⟨List.replicate 4096 0x61, fun h => absurd (List.eq_of_mem_replicate h) (by decide)⟩
  resource := some ⟨[], List.not_mem_nil⟩

/-- The second call prints beyond the buffer, with a size that has wrapped around. -/
theorem not_detailsKept_longMessage :
    ¬ DetailsKept .failed (some longMessage) ⟨.ok, fun _ => 0⟩ := by
  rintro ⟨hinside, -, -⟩
  rw [s3ResponseCompleteCallback_eq] at hinside
  obtain ⟨c, hc, hoffset⟩ := exists_last_call ⟨fun _ => 0, 0, []⟩
    (show pieces (some longMessage) ≠ [] from List.cons_ne_nil _ _)
  have hle := (hinside c hc).offset_le
  have hlength : (pieces (some longMessage)).dropLast.flatten.length = 4108 := by
    show ((ascii "  Message: " ++ List.replicate 4096 0x61 ++ ascii "\n") ++ []).length = 4108
    rw [List.append_nil, List.length_append, List.length_append, List.length_replicate]
    rfl
  rw [hoffset, hlength] at hle
  exact absurd hle (by decide)

end App

end CloudTiering
