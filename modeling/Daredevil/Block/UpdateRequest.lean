/-
  Daredevil.Block.UpdateRequest

  Completing a request in parts (`block/blk-mq.c`).  `blk_update_request` completes a number of
  bytes: it goes along the bios of the request, takes from each what it has, ends those that have
  nothing left, and makes the request what remains to be done.  The driver says with each part
  whether it has failed, and a bio gets the error of the parts that it has bytes in.

  The bytes of a request are counted from its beginning.  A bio has the bytes from `a` to `z`,
  and a part of `n` bytes that begins at `p` touches it if the two overlap; a part without any
  bytes touches the bio at which it stands.

    * `statusAfter`, `view` — what a list of parts makes of the bios, bio by bio;
    * `completeBios_view`   — the loop does just that;
    * `completeBios_ended`  — whom it tells: the owners of the bios it comes to the end of, unless
                              the request is under a flush sequence;
    * `calls_view`          — so do any number of calls, and what they leave is consistent;
    * `blkCompleteRequest_agrees` — `blk_complete_request` tells the same to the same owners.
-/
import Mathlib.Data.List.Basic

namespace Daredevil.UpdateRequest

/-! ## Requests -/

/-- `BLK_STS_OK`, and `BLK_STS_IOERR` -/
def blkStsOk : Nat := 0

def blkStsIoerr : Nat := 10

structure Bio where
  /-- the bio itself -/
  id : Nat
  biStatus : Nat
  /-- `bi_iter.bi_size`, `bi_iter.bi_sector` -/
  biSize : Nat
  biSector : Int
  /-- `bi_opf & REQ_FAILFAST_MASK` -/
  failfast : Nat
  /-- `BIO_TRACE_COMPLETION`, `BIO_QUIET` -/
  traceCompletion : Bool
  quiet : Bool
  deriving DecidableEq, Repr

structure Request where
  /-- `REQ_OP_ZONE_APPEND` -/
  zoneAppend : Bool
  /-- `blk_rq_is_passthrough` -/
  passthrough : Bool
  /-- `cmd_flags & REQ_FAILFAST_MASK` -/
  failfast : Nat
  /-- `RQF_QUIET`, `RQF_FLUSH_SEQ`, `RQF_MIXED_MERGE`, `RQF_SPECIAL_PAYLOAD` -/
  quiet : Bool
  flushSeq : Bool
  mixedMerge : Bool
  specialPayload : Bool
  dataLen : Nat
  sector : Int
  nrPhysSegments : Nat
  /-- the bios, linked by `bi_next` -/
  bio : List Bio
  /-- `end_io` is set -/
  endIo : Bool
  deriving DecidableEq, Repr

/-- What the block layer asks about the segments of a request. -/
structure Segments where
  /-- `bio_iovec(bio).bv_len`, or the size of a bio without data -/
  curBytes : Bio → Nat
  /-- a segment of a bio is not larger than what is left of the bio -/
  curBytes_le : ∀ b, curBytes b ≤ b.biSize
  /-- `blk_recalc_rq_segments` -/
  recalcRqSegments : Request → Nat

def Request.curBytes (seg : Segments) (rq : Request) : Nat :=
  match rq.bio with
  | [] => 0
  | b :: _ => seg.curBytes b

/-! ## Completion -/

/-- `bio_advance` -/
def bioAdvance (bio : Bio) (nbytes : Nat) : Bio :=
  if nbytes = bio.biSize then { bio with biSize := 0 }
  else { bio with biSize := bio.biSize - nbytes, biSector := bio.biSector + nbytes / 512 }

/-- The status and the sector that `req_bio_endio` gives to a bio. -/
def reqBioStatus (rq : Request) (bio : Bio) (nbytes error : Nat) : Bio :=
  if error ≠ blkStsOk then { bio with biStatus := error }
  else if rq.zoneAppend then
    if bio.biSize ≠ nbytes then { bio with biStatus := blkStsIoerr }
    else { bio with biSector := rq.sector }
  else bio

/-- `req_bio_endio`, `bio_endio` apart -/
def reqBioEndio (rq : Request) (bio : Bio) (nbytes error : Nat) : Bio :=
  let bio := bioAdvance (reqBioStatus rq bio nbytes error) nbytes
  { bio with quiet := bio.quiet || rq.quiet }

/-- The bios for which `req_bio_endio` calls `bio_endio`: not those of a flush sequence. -/
def bioEndios (rq : Request) (bio : Bio) : List Bio :=
  if bio.biSize = 0 ∧ ¬rq.flushSeq then [bio] else []

/-- What the loop of `blk_update_request` leaves. -/
structure Progress where
  /-- the bios that have nothing left, in the order in which the loop has come by them -/
  done : List Bio
  /-- the bios that are ended -/
  ended : List Bio
  rest : List Bio
  totalBytes : Nat
  deriving DecidableEq, Repr

def completeBios (rq : Request) (error : Nat) : List Bio → Nat → Progress
  | [], _ => ⟨[], [], [], 0⟩
  | bio :: bios, nrBytes =>
      let bioBytes := min bio.biSize nrBytes
      let bio' := reqBioEndio rq { bio with traceCompletion := false } bioBytes error
      let ended := bioEndios rq bio'
      if bioBytes = bio.biSize then
        if nrBytes - bioBytes = 0 then ⟨[bio'], ended, bios, bioBytes⟩
        else
          let r := completeBios rq error bios (nrBytes - bioBytes)
          ⟨bio' :: r.done, ended ++ r.ended, r.rest, bioBytes + r.totalBytes⟩
      else ⟨[], ended, bio' :: bios, bioBytes⟩

structure Result where
  req : Request
  /-- the bios that the call has come to the end of, and those that it has ended -/
  done : List Bio
  ended : List Bio
  /-- what it returns -/
  more : Bool
  /-- `blk_dump_rq_flags` says that the request is botched -/
  botched : Bool
  deriving DecidableEq, Repr

/-- `total_bytes >> 9`, of an `int` -/
def sectorsOf (totalBytes : Nat) : Int := Int.bmod totalBytes 4294967296 / 512

/-- What remains of the request after `totalBytes` bytes, its segments apart. -/
def remainder (req : Request) (bio : Bio) (bios : List Bio) (totalBytes : Nat) : Request :=
  { req with
    bio := bio :: bios
    -- `unsigned int`
    dataLen := (req.dataLen + 4294967296 - totalBytes) % 4294967296
    sector := if req.passthrough then req.sector else req.sector + sectorsOf totalBytes
    failfast := if req.mixedMerge then bio.failfast else req.failfast }

/-- The end of `blk_update_request`, and whether it finds the request botched -/
def checkSegments (seg : Segments) (req : Request) : Request × Bool :=
  if req.specialPayload then (req, false)
  else if req.dataLen < req.curBytes seg then
    let req := { req with dataLen := req.curBytes seg }
    ({ req with nrPhysSegments := seg.recalcRqSegments req }, true)
  else ({ req with nrPhysSegments := seg.recalcRqSegments req }, false)

def blkUpdateRequest (seg : Segments) (req : Request) (error nrBytes : Nat) : Result :=
  if req.bio.isEmpty then ⟨req, [], [], false, false⟩
  else
    let r := completeBios req error req.bio nrBytes
    match r.rest with
    | [] => ⟨{ req with bio := [], dataLen := 0 }, r.done, r.ended, false, false⟩
    | bio :: bios =>
        let checked := checkSegments seg (remainder req bio bios r.totalBytes)
        ⟨checked.1, r.done, r.ended, true, checked.2⟩

/-- What `blk_complete_request` leaves, with the bios in the order in which it comes by them. -/
structure Completed where
  req : Request
  done : List Bio
  /-- the bios for which it calls `bio_endio` -/
  ended : List Bio
  deriving DecidableEq, Repr

def blkCompleteRequest (req : Request) : Completed :=
  if req.bio.isEmpty then ⟨req, [], []⟩
  else
    let done := req.bio.map fun bio => { bio with
      traceCompletion := false
      biSector := if req.zoneAppend then req.sector else bio.biSector }
    ⟨if req.endIo then req else { req with bio := [], dataLen := 0 }, done,
      if req.flushSeq then [] else done⟩

/-- What the owner of a bio looks at when it is ended; the sector tells where an append went. -/
def Bio.report (zoneAppend : Bool) (b : Bio) : Nat × Nat × Option Int :=
  (b.id, b.biStatus, if zoneAppend then some b.biSector else none)

/-- A part that is completed. -/
structure Part where
  error : Nat
  bytes : Nat
  deriving DecidableEq, Repr

/-- The request, and what has come of its bios, after some parts. -/
structure Outcome where
  req : Request
  done : List Bio
  ended : List Bio
  botched : Bool
  deriving DecidableEq, Repr

def calls (seg : Segments) : Request → List Part → Outcome
  | req, [] => ⟨req, [], [], false⟩
  | req, c :: cs =>
      let r := blkUpdateRequest seg req c.error c.bytes
      let o := calls seg r.req cs
      ⟨o.req, r.done ++ o.done, r.ended ++ o.ended, r.botched || o.botched⟩

/-! ## What the parts make of the bios -/

def bytes (bios : List Bio) : Nat := (bios.map fun b => b.biSize).foldr (· + ·) 0

def partBytes (cs : List Part) : Nat := (cs.map fun c => c.bytes).foldr (· + ·) 0

/-- The status that a part leaves on the bio with the bytes from `a` to `z`. -/
def statusOf (zoneAppend : Bool) (a z p : Nat) (c : Part) (status : Nat) : Nat :=
  if p < z ∧ a < p + max c.bytes 1 then
    if c.error ≠ blkStsOk then c.error
    else if zoneAppend ∧ p + c.bytes < z then blkStsIoerr
    else status
  else status

def statusAfter (zoneAppend : Bool) (a z : Nat) : Nat → List Part → Nat → Nat
  | _, [], status => status
  | p, c :: cs, status =>
      statusAfter zoneAppend a z (p + c.bytes) cs (statusOf zoneAppend a z p c status)

/-- What a bio is in the end: itself, its status, and how many bytes it has left. -/
abbrev Key := Nat × Nat × Nat

def Bio.key (b : Bio) : Key := (b.id, b.biStatus, b.biSize)

/-- The bios from the byte `a` on, after the parts from the byte `p` on. -/
def view (zoneAppend : Bool) (p : Nat) (cs : List Part) : Nat → List Bio → List Key
  | _, [] => []
  | a, b :: bs =>
      (b.id, statusAfter zoneAppend a (a + b.biSize) p cs b.biStatus,
        min b.biSize (a + b.biSize - (p + partBytes cs))) ::
      view zoneAppend p cs (a + b.biSize) bs

@[simp] theorem bytes_nil : bytes [] = 0 := rfl

@[simp] theorem bytes_cons (b : Bio) (bs : List Bio) : bytes (b :: bs) = b.biSize + bytes bs := rfl

@[simp] theorem partBytes_nil : partBytes [] = 0 := rfl

@[simp] theorem partBytes_cons (c : Part) (cs : List Part) :
    partBytes (c :: cs) = c.bytes + partBytes cs := rfl

section View

variable {zoneAppend : Bool} {a z p d : Nat} {c : Part} {cs : List Part} {bs : List Bio}

/-- Parts beyond the end of a bio are nothing to it. -/
theorem statusAfter_past (h : z ≤ p) (status : Nat) :
    statusAfter zoneAppend a z p cs status = status := by
  induction cs generalizing p status with
  | nil => rfl
  | cons c cs ih =>
      have h_not : ¬(p < z ∧ a < p + max c.bytes 1) := by omega
      rw [statusAfter, statusOf, if_neg h_not]
      exact ih (by omega) status

/-- It does not matter where the bytes are counted from. -/
theorem statusAfter_shift (status : Nat) :
    statusAfter zoneAppend (a + d) (z + d) (p + d) cs status =
      statusAfter zoneAppend a z p cs status := by
  induction cs generalizing p status with
  | nil => rfl
  | cons c cs ih =>
      have h_touch : (p + d < z + d ∧ a + d < p + d + max c.bytes 1) ↔
          (p < z ∧ a < p + max c.bytes 1) := by omega
      have h_part : (p + d + c.bytes < z + d) ↔ p + c.bytes < z := by omega
      simp only [statusAfter, statusOf, h_touch, h_part]
      rw [Nat.add_right_comm]
      exact ih _

/-- Nor where a bio begins that is under way. -/
theorem statusAfter_begun {a' : Nat} (h_a : a ≤ p) (h_a' : a' ≤ p) (status : Nat) :
    statusAfter zoneAppend a z p cs status = statusAfter zoneAppend a' z p cs status := by
  induction cs generalizing p status with
  | nil => rfl
  | cons c cs ih =>
      have h_touch : (p < z ∧ a < p + max c.bytes 1) ↔ (p < z ∧ a' < p + max c.bytes 1) := by omega
      simp only [statusAfter, statusOf, h_touch]
      exact ih (by omega) (by omega) _

theorem view_shift : view zoneAppend (p + d) cs (a + d) bs = view zoneAppend p cs a bs := by
  induction bs generalizing a with
  | nil => rfl
  | cons b bs ih =>
      have h_end : a + d + b.biSize = a + b.biSize + d := by omega
      have h_left : a + b.biSize + d - (p + d + partBytes cs) =
          a + b.biSize - (p + partBytes cs) := by omega
      simp only [view]
      rw [h_end, statusAfter_shift, h_left, ih]

/-- A part that ends before the bios is nothing to them. -/
theorem view_before (h : p + max c.bytes 1 ≤ a) :
    view zoneAppend p (c :: cs) a bs = view zoneAppend (p + c.bytes) cs a bs := by
  induction bs generalizing a with
  | nil => rfl
  | cons b bs ih =>
      have h_not : ¬(p < a + b.biSize ∧ a < p + max c.bytes 1) := by omega
      have h_left : a + b.biSize - (p + partBytes (c :: cs)) =
          a + b.biSize - (p + c.bytes + partBytes cs) := by
        rw [partBytes_cons]
        omega
      simp only [view, statusAfter, statusOf, if_neg h_not]
      rw [h_left, ih (by omega)]

/-- A part is to the bios behind the first one what it has left after that. -/
theorem view_cut (h : d < c.bytes) (h_pos : ∀ b ∈ bs, 0 < b.biSize) :
    view zoneAppend 0 (c :: cs) (a + d) bs =
      view zoneAppend 0 (⟨c.error, c.bytes - d⟩ :: cs) a bs := by
  induction bs generalizing a with
  | nil => rfl
  | cons b bs ih =>
      have h_b := h_pos b List.mem_cons_self
      have h_end : a + d + b.biSize = a + b.biSize + d := by omega
      have h_touch : (0 < a + b.biSize + d ∧ a + d < 0 + max c.bytes 1) ↔
          (0 < a + b.biSize ∧ a < 0 + max (c.bytes - d) 1) := by omega
      have h_part : 0 + c.bytes < a + b.biSize + d ↔ 0 + (c.bytes - d) < a + b.biSize := by omega
      have h_p : 0 + c.bytes = 0 + (c.bytes - d) + d := by omega
      have h_left : a + b.biSize + d - (0 + partBytes (c :: cs)) =
          a + b.biSize - (0 + partBytes (⟨c.error, c.bytes - d⟩ :: cs)) := by
        simp only [partBytes_cons]
        omega
      simp only [view, statusAfter, statusOf]
      rw [h_end, h_left, ih fun b h_b => h_pos b (List.mem_cons_of_mem _ h_b)]
      simp only [h_touch, h_part]
      rw [h_p, statusAfter_shift]

end View

/-! ## The loop -/

section Loop

variable {rq : Request} {bio : Bio} {bs : List Bio} {error n : Nat} {cs : List Part}

theorem bioAdvance_size : (bioAdvance bio n).biSize = bio.biSize - n := by
  unfold bioAdvance
  split
  · rename_i h_all
    rw [h_all, Nat.sub_self]
  · rfl

theorem bioAdvance_id : (bioAdvance bio n).id = bio.id := by
  unfold bioAdvance
  split <;> rfl

theorem bioAdvance_status : (bioAdvance bio n).biStatus = bio.biStatus := by
  unfold bioAdvance
  split <;> rfl

theorem reqBioStatus_size : (reqBioStatus rq bio n error).biSize = bio.biSize := by
  unfold reqBioStatus
  split_ifs <;> rfl

theorem reqBioStatus_id : (reqBioStatus rq bio n error).id = bio.id := by
  unfold reqBioStatus
  split_ifs <;> rfl

theorem reqBioEndio_id : (reqBioEndio rq bio n error).id = bio.id := by
  show (bioAdvance _ n).id = bio.id
  rw [bioAdvance_id, reqBioStatus_id]

theorem reqBioEndio_size : (reqBioEndio rq bio n error).biSize = bio.biSize - n := by
  show (bioAdvance _ n).biSize = bio.biSize - n
  rw [bioAdvance_size, reqBioStatus_size]

/-- The status is that of the part, which stands at the beginning of what is left of the bio. -/
theorem reqBioEndio_status (h_size : 0 < bio.biSize) :
    (reqBioEndio rq bio (min bio.biSize n) error).biStatus =
      statusOf rq.zoneAppend 0 bio.biSize 0 ⟨error, n⟩ bio.biStatus := by
  have h_touch : 0 < bio.biSize ∧ 0 < 0 + max n 1 := by omega
  have h_part : bio.biSize ≠ min bio.biSize n ↔ 0 + n < bio.biSize := by omega
  show (bioAdvance _ _).biStatus = _
  rw [statusOf, if_pos h_touch, bioAdvance_status]
  unfold reqBioStatus
  split_ifs <;> grind

/-- What the loop leaves, as far as the number of bytes goes. -/
theorem completeBios_bytes :
    (completeBios rq error bs n).totalBytes = min (bytes bs) n ∧
      bytes (completeBios rq error bs n).rest = bytes bs - n := by
  induction bs generalizing n with
  | nil => simp [completeBios]
  | cons b bs ih =>
      rw [completeBios]
      split
      · rename_i h_all
        split
        · rename_i h_end
          refine ⟨?_, ?_⟩
          · simp only [bytes_cons]
            omega
          · simp only [bytes_cons]
            omega
        · rename_i h_more
          obtain ⟨h_total, h_rest⟩ := ih (n := n - min b.biSize n)
          refine ⟨?_, ?_⟩
          · simp only [h_total, bytes_cons]
            omega
          · simp only [h_rest, bytes_cons]
            omega
      · rename_i h_part
        refine ⟨?_, ?_⟩
        · simp only [bytes_cons]
          omega
        · simp only [bytes_cons, reqBioEndio_size]
          omega

/-- What is left is what the loop has not come to the end of. -/
theorem completeBios_pos (h_pos : ∀ b ∈ bs, 0 < b.biSize) :
    (∀ b ∈ (completeBios rq error bs n).done, b.biSize = 0) ∧
      ∀ b ∈ (completeBios rq error bs n).rest, 0 < b.biSize := by
  induction bs generalizing n with
  | nil => simp [completeBios]
  | cons b bs ih =>
      have h_bs : ∀ b ∈ bs, 0 < b.biSize := fun b h_b => h_pos b (List.mem_cons_of_mem _ h_b)
      rw [completeBios]
      split
      · rename_i h_all
        have h_zero : (reqBioEndio rq { b with traceCompletion := false } (min b.biSize n)
            error).biSize = 0 := by
          rw [reqBioEndio_size]
          show b.biSize - min b.biSize n = 0
          omega
        split
        · exact ⟨by simpa using h_zero, h_bs⟩
        · obtain ⟨h_done, h_rest⟩ := ih h_bs (n := n - min b.biSize n)
          exact ⟨List.forall_mem_cons.mpr ⟨h_zero, h_done⟩, h_rest⟩
      · rename_i h_part
        refine ⟨by simp, List.forall_mem_cons.mpr ⟨?_, h_bs⟩⟩
        rw [reqBioEndio_size]
        show 0 < b.biSize - _
        omega

/-- The loop ends the bios that it comes to the end of, unless they are a flush sequence's. -/
theorem completeBios_ended (h_pos : ∀ b ∈ bs, 0 < b.biSize) :
    (completeBios rq error bs n).ended =
      if rq.flushSeq then [] else (completeBios rq error bs n).done := by
  induction bs generalizing n with
  | nil => simp [completeBios]
  | cons b bs ih =>
      have h_b := h_pos b List.mem_cons_self
      have h_bs : ∀ b ∈ bs, 0 < b.biSize := fun b h_b => h_pos b (List.mem_cons_of_mem _ h_b)
      have h_size : (reqBioEndio rq { b with traceCompletion := false } (min b.biSize n)
          error).biSize = b.biSize - min b.biSize n := reqBioEndio_size
      simp only [completeBios, bioEndios, h_size]
      split
      · rename_i h_all
        have h_zero : b.biSize - min b.biSize n = 0 := by omega
        split
        · cases rq.flushSeq <;> simp [h_zero]
        · simp only [ih h_bs]
          cases rq.flushSeq <;> simp [h_zero]
      · rename_i h_part
        have h_left : ¬b.biSize - min b.biSize n = 0 := by omega
        simp [h_left]

/-- The bios that the loop is done with, and what the other parts make of those that it leaves. -/
theorem completeBios_view (h_pos : ∀ b ∈ bs, 0 < b.biSize) (cs : List Part) :
    let r := completeBios rq error bs n
    view rq.zoneAppend 0 (⟨error, n⟩ :: cs) 0 bs =
      r.done.map Bio.key ++ view rq.zoneAppend 0 cs 0 r.rest := by
  induction bs generalizing n with
  | nil => simp [completeBios, view]
  | cons b bs ih =>
      have h_b := h_pos b List.mem_cons_self
      have h_bs : ∀ b ∈ bs, 0 < b.biSize := fun b h_b => h_pos b (List.mem_cons_of_mem _ h_b)
      have h_status : (reqBioEndio rq { b with traceCompletion := false } (min b.biSize n)
          error).biStatus = statusOf rq.zoneAppend 0 b.biSize 0 ⟨error, n⟩ b.biStatus :=
        reqBioEndio_status h_b
      simp only [completeBios]
      split
      · rename_i h_all
        have h_key : (reqBioEndio rq { b with traceCompletion := false } (min b.biSize n)
            error).key = (b.id, statusAfter rq.zoneAppend 0 (0 + b.biSize) 0 (⟨error, n⟩ :: cs)
              b.biStatus, min b.biSize (0 + b.biSize - (0 + partBytes (⟨error, n⟩ :: cs)))) := by
          rw [Bio.key, reqBioEndio_id, reqBioEndio_size, h_status, statusAfter,
            statusAfter_past (by simp only; omega), partBytes_cons, Nat.zero_add]
          simp only [Prod.mk.injEq, true_and]
          omega
        split
        · -- the part ends with the bio, and is nothing to those behind it
          rename_i h_end
          have h_n : n = b.biSize := by omega
          have h_before : view rq.zoneAppend 0 (⟨error, n⟩ :: cs) (0 + b.biSize) bs =
              view rq.zoneAppend (0 + n) cs (0 + b.biSize) bs :=
            view_before (by simp only; omega)
          simp only [view, List.map_cons, List.map_nil, List.cons_append, List.nil_append]
          rw [h_key, h_before, h_n, view_shift]
        · -- what is left of the part is a part that begins with the next bio
          rename_i h_more
          have h_cut : view rq.zoneAppend 0 (⟨error, n⟩ :: cs) (0 + b.biSize) bs =
              view rq.zoneAppend 0 (⟨error, n - b.biSize⟩ :: cs) 0 bs :=
            view_cut (by simp only; omega) h_bs
          have h_min : min b.biSize n = b.biSize := h_all
          simp only [view, List.map_cons, List.cons_append]
          rw [h_key, h_cut, h_min, ih h_bs]
      · rename_i h_part
        have h_before : view rq.zoneAppend 0 (⟨error, n⟩ :: cs) (0 + b.biSize) bs =
            view rq.zoneAppend (0 + n) cs (0 + b.biSize) bs :=
          view_before (by simp only; omega)
        -- what is left of the bio is a bio that begins where the part has ended
        obtain ⟨m, h_m⟩ : ∃ m, b.biSize = m + n := ⟨b.biSize - n, by omega⟩
        have h_min : min b.biSize n = n := by omega
        have h_tail : view rq.zoneAppend (0 + n) cs (0 + b.biSize) bs =
            view rq.zoneAppend 0 cs m bs := by
          rw [h_m, Nat.zero_add (m + n), view_shift]
        have h_head : statusAfter rq.zoneAppend 0 (0 + b.biSize) 0 (⟨error, n⟩ :: cs) b.biStatus =
            statusAfter rq.zoneAppend 0 m 0 cs
              (statusOf rq.zoneAppend 0 b.biSize 0 ⟨error, n⟩ b.biStatus) := by
          rw [statusAfter, Nat.zero_add b.biSize]
          generalize statusOf rq.zoneAppend 0 b.biSize 0 ⟨error, n⟩ b.biStatus = status
          rw [h_m, statusAfter_begun (Nat.zero_le (0 + n)) (Nat.le_refl (0 + n))]
          exact statusAfter_shift status
        have h_left : min b.biSize (0 + b.biSize - (0 + partBytes (⟨error, n⟩ :: cs))) =
            min m (0 + m - (0 + partBytes cs)) := by
          rw [partBytes_cons]
          simp only
          omega
        have h_rest : (reqBioEndio rq { b with traceCompletion := false } (min b.biSize n)
            error).biSize = m := by
          rw [reqBioEndio_size]
          show b.biSize - min b.biSize n = m
          omega
        simp only [view, List.map_nil, List.nil_append]
        rw [h_before, h_tail, h_head, h_left, h_rest, h_status, reqBioEndio_id, Nat.zero_add m]

end Loop

/-! ## The bios on the disk -/

/-- The bios are one behind the other, beginning with `sector`. -/
def Contiguous : Int → List Bio → Prop
  | _, [] => True
  | sector, b :: bs =>
      b.biSector = sector ∧ 512 ∣ b.biSize ∧ Contiguous (sector + (b.biSize / 512 : Nat)) bs

theorem bmod_small {n : Nat} (h : n < 2147483648) : Int.bmod n 4294967296 = n := by
  refine Int.bmod_eq_of_le ?_ ?_
  · omega
  · omega

theorem sectorsOf_small {n : Nat} (h : n < 2147483648) : sectorsOf n = (n / 512 : Nat) := by
  unfold sectorsOf
  rw [bmod_small h]
  exact (Int.natCast_ediv n 512).symm

section Disk

variable {rq : Request} {bs : List Bio} {error n : Nat} {sector : Int}

theorem reqBioStatus_sector {bio : Bio} (h_part : n ≠ bio.biSize) :
    (reqBioStatus rq bio n error).biSector = bio.biSector := by
  unfold reqBioStatus
  split_ifs with _ _ h_all
  · rfl
  · rfl
  · exact absurd (not_not.mp h_all).symm h_part
  · rfl

/-- A bio that is not ended goes on where the part ends. -/
theorem reqBioEndio_sector {bio : Bio} (h_part : n ≠ bio.biSize) :
    (reqBioEndio rq bio n error).biSector = bio.biSector + (n / 512 : Nat) := by
  have h_size : n ≠ (reqBioStatus rq bio n error).biSize := by rwa [reqBioStatus_size]
  show (bioAdvance _ n).biSector = _
  rw [bioAdvance, if_neg h_size, reqBioStatus_sector h_part]
  rfl

theorem completeBios_contiguous (h : Contiguous sector bs) (h_n : 512 ∣ n) :
    Contiguous (sector + ((completeBios rq error bs n).totalBytes / 512 : Nat))
      (completeBios rq error bs n).rest := by
  induction bs generalizing n sector with
  | nil => exact trivial
  | cons b bs ih =>
      obtain ⟨h_sector, h_b, h_bs⟩ := h
      simp only [completeBios]
      split
      · rename_i h_all
        split
        · rw [h_all]
          exact h_bs
        · have h_more : 512 ∣ n - min b.biSize n := by
            rw [h_all]
            exact Nat.dvd_sub h_n h_b
          have h_rest := ih h_bs h_more
          have h_total : (min b.biSize n +
              (completeBios rq error bs (n - min b.biSize n)).totalBytes) / 512 =
                b.biSize / 512 +
                  (completeBios rq error bs (n - min b.biSize n)).totalBytes / 512 := by
            omega
          simp only [h_total]
          rw [Int.add_assoc] at h_rest
          exact_mod_cast h_rest
      · rename_i h_part
        have h_min : min b.biSize n = n := by omega
        have h_next : (reqBioEndio rq { b with traceCompletion := false } (min b.biSize n)
            error).biSector = b.biSector + (min b.biSize n / 512 : Nat) :=
          reqBioEndio_sector h_part
        refine ⟨?_, ?_, ?_⟩
        · rw [h_next, h_sector]
        · rw [reqBioEndio_size, h_min]
          exact Nat.dvd_sub h_b h_n
        · rw [reqBioEndio_size, h_min]
          have h_end : sector + (n / 512 : Nat) + ((b.biSize - n) / 512 : Nat) =
              sector + (b.biSize / 512 : Nat) := by
            omega
          simp only [h_end]
          exact h_bs

end Disk

/-! ## Any number of calls -/

section Calls

variable {seg : Segments} {rq : Request} {bs : List Bio} {c : Part} {cs : List Part}

/-- The request has the bytes that its bios have. -/
structure Wf (rq : Request) : Prop where
  pos : ∀ b ∈ rq.bio, 0 < b.biSize
  dataLen : rq.dataLen = bytes rq.bio
  small : rq.dataLen < 4294967296

/-- Where the request is on the disk; a passthrough request is nowhere. -/
def Placed (rq : Request) : Prop := rq.passthrough = false → Contiguous rq.sector rq.bio

theorem bytes_pos {b : Bio} (h_b : 0 < b.biSize) : 0 < bytes (b :: bs) := by
  rw [bytes_cons]
  omega

/-- What `blk_update_request` does to a request that has something left. -/
structure Updates (rq : Request) (c : Part) (r : Result) : Prop where
  bio : r.req.bio = (completeBios rq c.error rq.bio c.bytes).rest
  done : r.done = (completeBios rq c.error rq.bio c.bytes).done
  dataLen : r.req.dataLen = bytes r.req.bio
  more : r.more = decide (0 < bytes r.req.bio)
  botched : r.botched = false
  ended : r.ended = if rq.flushSeq then [] else r.done
  zoneAppend : r.req.zoneAppend = rq.zoneAppend
  flushSeq : r.req.flushSeq = rq.flushSeq
  passthrough : r.req.passthrough = rq.passthrough
  sector : r.req.bio ≠ [] → rq.passthrough = false →
    r.req.sector = rq.sector + sectorsOf (completeBios rq c.error rq.bio c.bytes).totalBytes

/-- The check never fails on a request that has the bytes of its bios. -/
theorem checkSegments_eq (h : ¬rq.dataLen < rq.curBytes seg) :
    ∃ k, checkSegments seg rq = ({ rq with nrPhysSegments := k }, false) := by
  unfold checkSegments
  split
  · exact ⟨rq.nrPhysSegments, rfl⟩
  · exact ⟨seg.recalcRqSegments rq, rfl⟩

theorem blkUpdateRequest_updates (h : Wf rq) :
    Updates rq c (blkUpdateRequest seg rq c.error c.bytes) := by
  have h_small := h.small
  have h_len := h.dataLen
  obtain ⟨h_total, h_rest⟩ := @completeBios_bytes rq rq.bio c.error c.bytes
  have h_pos := (@completeBios_pos rq rq.bio c.error c.bytes h.pos).2
  have h_ended := @completeBios_ended rq rq.bio c.error c.bytes h.pos
  by_cases h_bio : rq.bio = []
  · have h_call : blkUpdateRequest seg rq c.error c.bytes = ⟨rq, [], [], false, false⟩ := by
      rw [blkUpdateRequest, h_bio]
      rfl
    rw [h_bio] at h_len
    rw [h_call]
    exact ⟨by simp [h_bio, completeBios], by simp [h_bio, completeBios], by simp [h_bio, h_len],
      by simp [h_bio], rfl, by simp, rfl, rfl, rfl, fun h_ne => absurd h_bio h_ne⟩
  · have h_some : ¬rq.bio.isEmpty = true := by simpa using h_bio
    rw [blkUpdateRequest, if_neg h_some]
    cases h_left : (completeBios rq c.error rq.bio c.bytes).rest with
    | nil =>
        simp only [h_left]
        exact ⟨h_left.symm, rfl, rfl, rfl, rfl, h_ended, rfl, rfl, rfl, fun h_ne => absurd rfl h_ne⟩
    | cons bio bios =>
        rw [h_left] at h_rest h_pos
        have h_more : 0 < bytes (bio :: bios) := bytes_pos (h_pos bio List.mem_cons_self)
        have h_data : (rq.dataLen + 4294967296 -
            (completeBios rq c.error rq.bio c.bytes).totalBytes) % 4294967296 =
              bytes (bio :: bios) := by
          omega
        have h_fits : ¬bytes (bio :: bios) < seg.curBytes bio := by
          have h_cur := seg.curBytes_le bio
          rw [bytes_cons]
          omega
        simp only [h_left]
        obtain ⟨k, h_check⟩ := @checkSegments_eq seg
          (remainder rq bio bios (completeBios rq c.error rq.bio c.bytes).totalBytes)
          (by rw [remainder, h_data]; exact h_fits)
        rw [h_check]
        exact ⟨h_left.symm, rfl, h_data, (decide_eq_true h_more).symm, rfl, h_ended, rfl, rfl, rfl,
          fun _ h_fs => by simp [remainder, h_fs]⟩

namespace Updates

variable {r : Result}

theorem wf (h : Updates rq c r) (h_wf : Wf rq) : Wf r.req where
  pos := by
    rw [h.bio]
    exact (@completeBios_pos rq rq.bio c.error c.bytes h_wf.pos).2
  dataLen := h.dataLen
  small := by
    have h_small := h_wf.small
    have h_len := h_wf.dataLen
    rw [h.dataLen, h.bio, (@completeBios_bytes rq rq.bio c.error c.bytes).2]
    omega

theorem bytes_eq (h : Updates rq c r) : bytes r.req.bio = bytes rq.bio - c.bytes := by
  rw [h.bio, (@completeBios_bytes rq rq.bio c.error c.bytes).2]

theorem placed (h : Updates rq c r) (h_wf : Wf rq) (h_placed : Placed rq)
    (h_part : 512 ∣ c.bytes) (h_int : rq.dataLen < 2147483648) : Placed r.req := by
  intro h_fs
  rw [h.passthrough] at h_fs
  by_cases h_ne : r.req.bio = []
  · rw [h_ne]
    exact trivial
  · have h_total := (@completeBios_bytes rq rq.bio c.error c.bytes).1
    have h_len := h_wf.dataLen
    rw [h.sector h_ne h_fs, sectorsOf_small (by omega), h.bio]
    exact completeBios_contiguous (h_placed h_fs) h_part

end Updates

/-- What is left of the bios, and what has become of those that are ended. -/
theorem view_none (bs : List Bio) (a : Nat) (zoneAppend : Bool) :
    view zoneAppend 0 [] a bs = bs.map Bio.key := by
  induction bs generalizing a with
  | nil => rfl
  | cons b bs ih =>
      have h_left : min b.biSize (a + b.biSize - (0 + partBytes [])) = b.biSize := by
        rw [partBytes_nil]
        omega
      rw [view, ih, h_left]
      rfl

/-- After any number of parts: every bio is what the parts have made of it. -/
theorem calls_keys (h : Wf rq) (cs : List Part) :
    let o := calls seg rq cs
    (o.done ++ o.req.bio).map Bio.key = view rq.zoneAppend 0 cs 0 rq.bio ∧ o.botched = false ∧
      Wf o.req ∧ (∀ b ∈ o.done, b.biSize = 0) ∧ (o.ended = if rq.flushSeq then [] else o.done) ∧
      bytes o.req.bio = bytes rq.bio - partBytes cs := by
  induction cs generalizing rq with
  | nil =>
      exact ⟨(view_none rq.bio 0 rq.zoneAppend).symm, rfl, h, by simp [calls], by simp [calls], rfl⟩
  | cons c cs ih =>
      have h_up := @blkUpdateRequest_updates seg rq c h
      obtain ⟨h_keys, h_botched, h_wf, h_done, h_ended, h_bytes⟩ := ih (h_up.wf h)
      have h_first := (@completeBios_pos rq rq.bio c.error c.bytes h.pos).1
      refine ⟨?_, ?_, h_wf, ?_, ?_, ?_⟩
      · rw [@completeBios_view rq rq.bio c.error c.bytes h.pos cs, ← h_up.done, ← h_up.bio,
          ← h_up.zoneAppend, ← h_keys, List.map_append, List.map_append, calls]
        simp only [List.map_append, List.append_assoc]
      · show (_ || _) = false
        rw [h_up.botched, h_botched]
        rfl
      · intro b h_b
        rcases List.mem_append.mp h_b with h_now | h_later
        · rw [h_up.done] at h_now
          exact h_first b h_now
        · exact h_done b h_later
      · rw [h_up.flushSeq] at h_ended
        show _ ++ _ = if _ then [] else _ ++ _
        rw [h_up.ended, h_ended]
        cases rq.flushSeq <;> rfl
      · show bytes (calls seg _ cs).req.bio = _
        rw [h_bytes, h_up.bytes_eq, partBytes_cons, Nat.sub_sub]

theorem calls_placed (h : Wf rq) (h_placed : Placed rq) (h_int : rq.dataLen < 2147483648)
    (h_parts : ∀ c ∈ cs, 512 ∣ c.bytes) : Placed (calls seg rq cs).req := by
  induction cs generalizing rq with
  | nil => exact h_placed
  | cons c cs ih =>
      have h_up := @blkUpdateRequest_updates seg rq c h
      have h_len := h_up.dataLen
      have h_old := h.dataLen
      have h_left := h_up.bytes_eq
      have h_part := h_parts c List.mem_cons_self
      exact ih (h_up.wf h) (h_up.placed h h_placed h_part h_int) (by omega)
        fun c' h_c' => h_parts c' (List.mem_cons_of_mem c h_c')

def threeBios : Request :=
  { zoneAppend := false, passthrough := false, failfast := 0, quiet := false, flushSeq := false,
    mixedMerge := false, specialPayload := false, dataLen := 3584, sector := 100,
    nrPhysSegments := 3,
    bio := [⟨1, 0, 1024, 100, 0, true, false⟩, ⟨2, 0, 512, 102, 0, true, false⟩,
      ⟨3, 0, 2048, 103, 0, true, false⟩], endIo := false }

def oneSegment : Segments := ⟨fun b => b.biSize, fun _ => Nat.le_refl _, fun rq => rq.bio.length⟩

end Calls

/-! ## All at once -/

section Whole

variable {seg : Segments} {rq : Request} {bs : List Bio} {n : Nat}

theorem reqBioEndio_report (bio : Bio) :
    (reqBioEndio rq { bio with traceCompletion := false } bio.biSize blkStsOk).report
        rq.zoneAppend = Bio.report rq.zoneAppend { bio with
        traceCompletion := false
        biSector := if rq.zoneAppend then rq.sector else bio.biSector } := by
  cases h_zone : rq.zoneAppend <;>
    simp [reqBioEndio, reqBioStatus, bioAdvance, Bio.report, h_zone]

/-- The loop ends every bio that it comes to the end of as `blk_complete_request` does. -/
theorem completeBios_all (h_pos : ∀ b ∈ bs, 0 < b.biSize) (h_n : bytes bs ≤ n) :
    (completeBios rq blkStsOk bs n).rest = [] ∧
      (completeBios rq blkStsOk bs n).done.map (Bio.report rq.zoneAppend) =
        bs.map fun bio => Bio.report rq.zoneAppend { bio with
          traceCompletion := false
          biSector := if rq.zoneAppend then rq.sector else bio.biSector } := by
  induction bs generalizing n with
  | nil => exact ⟨rfl, rfl⟩
  | cons b bs ih =>
      rw [bytes_cons] at h_n
      have h_bs : ∀ b ∈ bs, 0 < b.biSize := fun b h_b => h_pos b (List.mem_cons_of_mem _ h_b)
      have h_all : min b.biSize n = b.biSize := by omega
      simp only [completeBios, h_all, if_true]
      split
      · rename_i h_end
        -- nothing is left for other bios, and so there are none
        have h_nil : bs = [] := by
          cases bs with
          | nil => rfl
          | cons b' bs' =>
              have h_more := @bytes_pos bs' b' (h_bs b' List.mem_cons_self)
              omega
        rw [h_nil, List.map_cons, List.map_cons, reqBioEndio_report]
        exact ⟨rfl, rfl⟩
      · obtain ⟨h_rest, h_done⟩ := ih h_bs (n := n - b.biSize) (by omega)
        rw [List.map_cons, List.map_cons, reqBioEndio_report, h_done]
        exact ⟨h_rest, rfl⟩

/-- `blk_complete_request`, by which the requests of a batch are completed, tells the owners of the
bios what `blk_update_request` does for the whole of the request, and leaves the request as it
does unless somebody has an `end_io` for it. -/
theorem blkCompleteRequest_agrees (h : Wf rq) :
    let r := blkUpdateRequest seg rq blkStsOk rq.dataLen
    (blkCompleteRequest rq).done.map (Bio.report rq.zoneAppend) =
        r.done.map (Bio.report rq.zoneAppend) ∧
      (blkCompleteRequest rq).ended.map (Bio.report rq.zoneAppend) =
        r.ended.map (Bio.report rq.zoneAppend) ∧
      r.more = false ∧ r.req.bio = [] ∧ r.req.dataLen = 0 ∧
      (blkCompleteRequest rq).req = if rq.endIo then rq else r.req := by
  have h_len := h.dataLen
  by_cases h_bio : rq.bio = []
  · have h_zero : rq.dataLen = 0 := by rw [h_len, h_bio, bytes_nil]
    have h_update : blkUpdateRequest seg rq blkStsOk rq.dataLen = ⟨rq, [], [], false, false⟩ := by
      rw [blkUpdateRequest, h_bio]
      rfl
    have h_complete : blkCompleteRequest rq = ⟨rq, [], []⟩ := by
      rw [blkCompleteRequest, h_bio]
      rfl
    rw [h_update, h_complete]
    exact ⟨rfl, rfl, rfl, h_bio, h_zero, (ite_self rq).symm⟩
  · have h_some : ¬rq.bio.isEmpty = true := by simpa using h_bio
    have h_fits : bytes rq.bio ≤ rq.dataLen := Nat.le_of_eq h_len.symm
    obtain ⟨h_rest, h_done⟩ := @completeBios_all rq rq.bio rq.dataLen h.pos h_fits
    have h_ended := @completeBios_ended rq rq.bio blkStsOk rq.dataLen h.pos
    have h_update : blkUpdateRequest seg rq blkStsOk rq.dataLen =
        ⟨{ rq with bio := [], dataLen := 0 }, (completeBios rq blkStsOk rq.bio rq.dataLen).done,
          (completeBios rq blkStsOk rq.bio rq.dataLen).ended, false, false⟩ := by
      rw [blkUpdateRequest, if_neg h_some]
      simp only [h_rest]
    have h_report : (completeBios rq blkStsOk rq.bio rq.dataLen).done.map
        (Bio.report rq.zoneAppend) = (rq.bio.map fun bio => { bio with
          traceCompletion := false
          biSector := if rq.zoneAppend then rq.sector else bio.biSector }).map
            (Bio.report rq.zoneAppend) := by
      rw [h_done, List.map_map]
      rfl
    rw [h_update, blkCompleteRequest, if_neg h_some, h_ended]
    refine ⟨h_report.symm, ?_, rfl, rfl, rfl, rfl⟩
    cases rq.flushSeq
    · exact h_report.symm
    · rfl

theorem blkCompleteRequest_agrees_three :
    (blkCompleteRequest threeBios).ended.map (Bio.report false) =
      (blkUpdateRequest oneSegment threeBios blkStsOk 3584).ended.map (Bio.report false) :=
  (@blkCompleteRequest_agrees oneSegment threeBios ⟨by decide, by decide, by decide⟩).2.1

end Whole

end Daredevil.UpdateRequest
