import VedDb.Lib.LittleEndian

/-!
# Length-prefixed frames

A frame is the length of its body, as four little-endian bytes, and the body.  A reader takes a
frame off a stream whose bytes arrive in pieces of any size: each time it is polled it takes what
has arrived, up to the end of the frame, and keeps what it took until the frame is complete.
-/

namespace Framing

open LittleEndian

/-- The length field keeps the four low bytes of the length. -/
def frame (body : Bytes) : Bytes := leBytes 4 body.length ++ body

@[simp] theorem frame_length (body : Bytes) : (frame body).length = 4 + body.length := by
  simp [frame]

/-- Read on until `size` bytes are taken, as far as the bytes that arrived go. -/
def fill (size : Nat) (taken arrived : Bytes) : Bytes × Bytes :=
  (taken ++ arrived.take (size - taken.length), arrived.drop (size - taken.length))

/-- What becomes of a read that is polled. -/
inductive Poll (E α : Type) where
  | pending (taken arrived : Bytes)
  | failed (e : E)
  | ready (value : α) (arrived : Bytes)

/-- Poll the read of a frame: first its length, which is checked against the limit, then its
body. -/
def poll {E α : Type} (limit : Nat) (tooLarge : Nat → E) (decode : Bytes → Except E α)
    (taken arrived : Bytes) : Poll E α :=
  let (head, arrived) := fill 4 taken arrived
  if head.length < 4 then .pending head arrived
  else
    let length := ofLeBytes (head.take 4)
    if limit < length then .failed (tooLarge length)
    else
      let (all, arrived) := fill (4 + length) head arrived
      if all.length < 4 + length then .pending all arrived
      else
        match decode (all.drop 4) with
        | .error e => .failed e
        | .ok value => .ready value arrived

/-! ## Reading on -/

theorem fill_of_le {size : Nat} {taken arrived : Bytes} (h : taken.length ≤ size) :
    fill size taken arrived = ((taken ++ arrived).take size, (taken ++ arrived).drop size) := by
  rw [fill, List.take_append, List.drop_append, List.take_of_length_le h,
    List.drop_of_length_le h, List.nil_append]

-- A read that has taken less than `total` bytes still has, after it read on to `size` of them.
theorem fill_fst_length_le {size total : Nat} {taken arrived : Bytes} (h : taken.length ≤ total)
    (hsize : size ≤ total) : (fill size taken arrived).1.length ≤ total := by
  rw [fill, List.length_append, List.length_take]
  omega

theorem fill_append (size : Nat) (taken arrived : Bytes) :
    (fill size taken arrived).1 ++ (fill size taken arrived).2 = taken ++ arrived := by
  rw [fill, List.append_assoc, List.take_append_drop]

theorem le_fill_fst_length {size : Nat} {taken arrived : Bytes}
    (h : size ≤ (taken ++ arrived).length) : size ≤ (fill size taken arrived).1.length := by
  rw [List.length_append] at h
  rw [fill, List.length_append, List.length_take]
  omega

/-! ## Frames -/

section

variable {E α : Type} {limit : Nat} {tooLarge : Nat → E} {decode : Bytes → Except E α}

theorem poll_nil : poll limit tooLarge decode [] [] = .pending [] [] := rfl

variable {body rest taken arrived coming : Bytes} {value : α}

-- Once the length has arrived, the read goes on to the end of the frame.
theorem poll_body (hlen : body.length < 2 ^ 32) (hlimit : body.length ≤ limit)
    (hstream : (taken ++ arrived) ++ coming = frame body ++ rest)
    (htaken : taken.length ≤ 4 + body.length) (hhead : 4 ≤ (taken ++ arrived).length) :
    poll limit tooLarge decode taken arrived =
      if ((taken ++ arrived).take (4 + body.length)).length < 4 + body.length then
        .pending ((taken ++ arrived).take (4 + body.length))
          ((taken ++ arrived).drop (4 + body.length))
      else
        match decode (((taken ++ arrived).take (4 + body.length)).drop 4) with
        | .error e => .failed e
        | .ok value => .ready value ((taken ++ arrived).drop (4 + body.length)) := by
  have happend := fill_append 4 taken arrived
  have hfirst := le_fill_fst_length hhead
  have hle : (fill 4 taken arrived).1.length ≤ 4 + body.length :=
    fill_fst_length_le htaken (by omega)
  -- the four bytes are the length field of the frame
  have hfield : (fill 4 taken arrived).1.take 4 = leBytes 4 body.length := by
    have hown : (fill 4 taken arrived).1.take 4 = (taken ++ arrived).take 4 := by
      rw [← happend, List.take_append_of_le_length hfirst]
    have hframe : ((taken ++ arrived) ++ coming).take 4 = leBytes 4 body.length := by
      rw [hstream, frame, List.append_assoc, List.take_left' (leBytes_length 4 body.length)]
    rw [hown, ← hframe, List.take_append_of_le_length hhead]
  have hvalue : ofLeBytes (leBytes 4 body.length) = body.length := ofLeBytes_leBytes_of_lt hlen
  have hsecond := @fill_of_le _ _ (fill 4 taken arrived).2 hle
  rw [happend] at hsecond
  unfold poll
  dsimp only
  rw [if_neg (Nat.not_lt.mpr hfirst), hfield, hvalue, if_neg (Nat.not_lt.mpr hlimit), hsecond]

-- Of a frame that has not fully arrived, everything that has is taken.
theorem poll_pending (hlen : body.length < 2 ^ 32) (hlimit : body.length ≤ limit)
    (hstream : (taken ++ arrived) ++ coming = frame body ++ rest)
    (hshort : (taken ++ arrived).length < 4 + body.length) :
    poll limit tooLarge decode taken arrived = .pending (taken ++ arrived) [] := by
  have htaken : taken.length ≤ (taken ++ arrived).length := by simp
  by_cases hhead : 4 ≤ (taken ++ arrived).length
  · rw [poll_body hlen hlimit hstream (by omega) hhead,
      List.take_of_length_le (Nat.le_of_lt hshort), List.drop_of_length_le (Nat.le_of_lt hshort),
      if_pos hshort]
  · have hfirst := @fill_of_le 4 taken arrived (by omega)
    rw [List.take_of_length_le (by omega), List.drop_of_length_le (by omega)] at hfirst
    unfold poll
    rw [hfirst]
    dsimp only
    rw [if_pos (Nat.not_le.mp hhead)]

-- A frame that has arrived is decoded, and nothing behind it is taken.
theorem poll_ready (hlen : body.length < 2 ^ 32) (hlimit : body.length ≤ limit)
    (hdecode : decode body = .ok value)
    (hstream : (taken ++ arrived) ++ coming = frame body ++ rest)
    (htaken : taken.length ≤ 4 + body.length)
    (hall : 4 + body.length ≤ (taken ++ arrived).length) :
    ∃ left, poll limit tooLarge decode taken arrived = .ready value left ∧
      left ++ coming = rest := by
  have hframe : (taken ++ arrived).take (4 + body.length) = frame body := by
    have htake := congrArg (List.take (4 + body.length)) hstream
    rw [List.take_append_of_le_length hall, List.take_left' (frame_length body)] at htake
    exact htake
  have hbody : (frame body).drop 4 = body := by
    rw [frame, List.drop_left' (leBytes_length 4 body.length)]
  refine ⟨(taken ++ arrived).drop (4 + body.length), ?_, ?_⟩
  · rw [poll_body hlen hlimit hstream htaken (by omega), hframe,
      if_neg (Nat.not_lt.mpr (Nat.le_of_eq (frame_length body).symm)), hbody, hdecode]
  · have hdrop := congrArg (List.drop (4 + body.length)) hstream
    rw [List.drop_append_of_le_length hall, List.drop_left' (frame_length body)] at hdrop
    exact hdrop

-- A frame that arrived as a whole, with whatever length its length field could take.
theorem poll_frame (body : Bytes) :
    poll limit tooLarge decode [] (frame body) =
      if limit < body.length % 2 ^ 32 then .failed (tooLarge (body.length % 2 ^ 32))
      else
        match decode (body.take (body.length % 2 ^ 32)) with
        | .error e => .failed e
        | .ok value => .ready value (body.drop (body.length % 2 ^ 32)) := by
  have hfirst : fill 4 [] (frame body) = (leBytes 4 body.length, body) := by
    rw [fill_of_le (by simp), List.nil_append, frame,
      List.take_left' (leBytes_length 4 body.length),
      List.drop_left' (leBytes_length 4 body.length)]
  have hvalue : ofLeBytes (leBytes 4 body.length) = body.length % 2 ^ 32 :=
    ofLeBytes_leBytes 4 body.length
  have htake : (leBytes 4 body.length).take 4 = leBytes 4 body.length :=
    List.take_of_length_le (by simp)
  have hsecond (n : Nat) : fill (4 + n) (leBytes 4 body.length) body =
      (leBytes 4 body.length ++ body.take n, body.drop n) := by
    rw [fill, leBytes_length, Nat.add_sub_cancel_left]
  have hle : body.length % 2 ^ 32 ≤ body.length := Nat.mod_le _ _
  unfold poll
  rw [hfirst]
  dsimp only
  rw [leBytes_length, if_neg (by decide), htake, hvalue]
  by_cases hlimit : limit < body.length % 2 ^ 32
  · rw [if_pos hlimit, if_pos hlimit]
  · rw [if_neg hlimit, if_neg hlimit, hsecond]
    dsimp only
    have hlen : (leBytes 4 body.length ++ body.take (body.length % 2 ^ 32)).length =
        4 + body.length % 2 ^ 32 := by
      rw [List.length_append, leBytes_length, List.length_take, Nat.min_eq_left hle]
    rw [hlen, if_neg (Nat.lt_irrefl _), List.drop_left' (leBytes_length 4 body.length)]

end

end Framing
