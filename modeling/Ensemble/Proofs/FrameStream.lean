import Ensemble.Frame
import Ensemble.Proofs.Wire

/-! # Stream framing

Replies arrive as frames on a byte stream: a frame is its length in four big-endian bytes
followed by its bytes (`Frame.framed`). The decoder buffers what it receives and hands out a
frame as soon as the buffer holds all of it. It is fed chunk by chunk (`Frame.receive`), and the
chunks may cut the stream anywhere: inside a length, inside a body, or between frames.

* `next_framed`: a step on a whole frame hands it out and keeps the bytes after it;
* `next_pending`: a step on a proper prefix of a frame waits;
* `decodeAll_stream`: whole frames followed by bytes on which a step waits give the frames, and
  the buffer keeps those bytes;
* `prefix_stream`: every prefix of a stream is whole frames followed by bytes on which a step
  waits;
* `absorb_received`: a chunk keeps the decoder `Received`: it has handed out the frames complete
  in what it received, and it buffers the rest;
* `Frame.receive_stream`: however a stream of frames that fit the decoder is cut into chunks, no
  step fails, the frames come out in order, and after each chunk the buffer holds exactly the
  bytes received and not handed out; a step fails exactly on a length that is negative or above
  the maximum.
-/

namespace Ensemble.Frame

/-- A frame on the stream: its length in four big-endian bytes, then its bytes. -/
def framed (f : List UInt8) : List UInt8 :=
  BigEndian.digits 4 f.length ++ f

/-- A frame that a decoder of maximum `maxLength` takes: no longer than the maximum, and short
enough for its length to be a non-negative `int`. -/
def Fits (maxLength : Nat) (f : List UInt8) : Prop :=
  f.length ≤ maxLength ∧ f.length < Nat.pow 2 31

/-! ### One step -/

theorem next_of_length_lt {maxLength : Nat} {buf : List UInt8} (h : buf.length < 4) :
    next maxLength buf = .ok none := by
  match buf, h with
  | [], _ | [_], _ | [_, _], _ | [_, _, _], _ => rfl

theorem digits_four (n : Nat) : ∃ b0 b1 b2 b3, BigEndian.digits 4 n = [b0, b1, b2, b3] :=
  ⟨_, _, _, _, rfl⟩

/-- The four bytes of a length below `2 ^ 31` read back as that length. -/
theorem toInt_toInt32_digits {n : Nat} (hn : n < Nat.pow 2 31) :
    (BigEndian.toInt32 (BigEndian.digits 4 n)).toInt = n := by
  rw [← BigEndian.ofInt32_ofNat, BigEndian.toInt32_ofInt32]
  rw [Nat.pow_eq] at hn
  exact Int32.toInt_ofNat_of_lt hn

/-- A step on a buffer that starts with the length of a frame that fits: the frame and the
bytes after it once all of it is there, and a wait before. -/
theorem next_length {maxLength n : Nat} (hn : n ≤ maxLength) (hlt : n < Nat.pow 2 31)
    (body : List UInt8) :
    next maxLength (BigEndian.digits 4 n ++ body)
      = .ok (if (body.take n).length = n then some (body.take n, body.drop n) else none) := by
  have hval := toInt_toInt32_digits hlt
  obtain ⟨b0, b1, b2, b3, hd⟩ := digits_four n
  rw [hd] at hval
  have hpos : ¬ BigEndian.toInt32 [b0, b1, b2, b3] < 0 := by
    rw [Int32.lt_iff_toInt_lt, hval]
    simp
  have hnat : (BigEndian.toInt32 [b0, b1, b2, b3]).toInt.toNat = n := by
    rw [hval]
    rfl
  rw [hd]
  simp only [next, List.cons_append, List.nil_append, hpos, if_false, hnat,
    show ¬ maxLength < n by omega]
  split <;> rfl

theorem next_framed {maxLength : Nat} {f : List UInt8} (hf : Fits maxLength f)
    (rest : List UInt8) : next maxLength (framed f ++ rest) = .ok (some (f, rest)) := by
  rw [framed, List.append_assoc, next_length hf.1 hf.2]
  simp

/-- A step on the first bytes of a frame that fits, short of all of them, waits. -/
theorem next_pending {maxLength : Nat} {f p : List UInt8} (hf : Fits maxLength f)
    (hp : p <+: framed f) (hlt : p.length < (framed f).length) : next maxLength p = .ok none := by
  by_cases hshort : p.length < 4
  · exact next_of_length_lt hshort
  -- past the four length bytes, the buffer holds a proper prefix of the body
  have hp' : p = BigEndian.digits 4 f.length ++ f.take (p.length - 4) := by
    conv => lhs; rw [List.prefix_iff_eq_take.mp hp]
    rw [framed, List.take_append, BigEndian.length_digits,
      List.take_of_length_le (by simp; omega)]
  have hbody : (f.take (p.length - 4)).length < f.length := by
    simp only [framed, List.length_append, BigEndian.length_digits] at hlt
    simp
    omega
  rw [hp', next_length hf.1 hf.2, List.take_of_length_le (Nat.le_of_lt hbody),
    if_neg (Nat.ne_of_lt hbody)]

/-! ### Whole frames -/

theorem length_le_stream (fs : List (List UInt8)) : fs.length ≤ (fs.flatMap framed).length := by
  induction fs with
  | nil => simp
  | cons f fs ih =>
    rw [List.flatMap_cons, List.length_append, framed, List.length_append,
      BigEndian.length_digits, List.length_cons]
    omega

/-- Draining whole frames followed by bytes on which a step waits hands out the frames and
keeps those bytes, given a round per frame and one more. -/
theorem drain_stream {maxLength : Nat} {q : List UInt8} (hq : next maxLength q = .ok none) :
    ∀ (fs : List (List UInt8)), (∀ f ∈ fs, Fits maxLength f) → ∀ fuel acc, fs.length < fuel →
      drain maxLength fuel (fs.flatMap framed ++ q) acc = (acc.reverse ++ fs, .ok q)
  | _, _, 0, _, hfuel => absurd hfuel (Nat.not_lt_zero _)
  | [], _, fuel + 1, acc, _ => by simp [drain, hq]
  | f :: fs, hfs, fuel + 1, acc, hfuel => by
    rw [List.flatMap_cons, List.append_assoc, drain, next_framed (hfs f (by simp))]
    dsimp only
    rw [drain_stream hq fs (fun g hg => hfs g (by simp [hg])) fuel (f :: acc)
      (by simp at hfuel; omega)]
    simp

theorem decodeAll_stream {maxLength : Nat} {fs : List (List UInt8)}
    (hfs : ∀ f ∈ fs, Fits maxLength f) {q : List UInt8} (hq : next maxLength q = .ok none) :
    decodeAll maxLength (fs.flatMap framed ++ q) = (fs, .ok q) := by
  have hlen := length_le_stream fs
  rw [decodeAll, drain_stream hq fs hfs _ [] (by rw [List.length_append]; omega)]
  simp

/-- Every prefix of a stream of frames that fit is whole frames followed by bytes on which a
step waits. -/
theorem prefix_stream {maxLength : Nat} :
    ∀ {fs : List (List UInt8)}, (∀ f ∈ fs, Fits maxLength f) → ∀ {p : List UInt8},
      p <+: fs.flatMap framed → ∃ k q, p = (fs.take k).flatMap framed ++ q ∧
        next maxLength q = .ok none
  | [], _, p, hp => ⟨0, [], by simpa using hp, rfl⟩
  | f :: fs, hfs, p, hp => by
    rw [List.flatMap_cons] at hp
    have hhead : framed f <+: framed f ++ fs.flatMap framed := List.prefix_append _ _
    by_cases hlt : p.length < (framed f).length
    · -- the first frame has not all arrived
      exact ⟨0, p, by simp, next_pending (hfs f (by simp))
        (List.prefix_of_prefix_length_le hp hhead (Nat.le_of_lt hlt)) hlt⟩
    · obtain ⟨p', rfl⟩ := List.prefix_of_prefix_length_le hhead hp (Nat.le_of_not_lt hlt)
      obtain ⟨k, q, rfl, hq⟩ := prefix_stream (fun g hg => hfs g (by simp [hg]))
        ((List.prefix_append_right_inj _).mp hp)
      exact ⟨k + 1, q, by simp, hq⟩

/-! ### The decoder along the stream -/

/-- The decoder of maximum `maxLength` has received `pre`, the first bytes of the stream of
`frames`: it has handed out `out`, the frames complete in `pre`, and it buffers the rest of
`pre`, on which a step waits, so that the last step of the chunk found nothing and kept it. -/
structure Received (maxLength : Nat) (frames : List (List UInt8)) (pre : List UInt8)
    (out : List (List UInt8)) (buf : List UInt8) : Prop where
  out_prefix : out <+: frames
  bytes : pre = out.flatMap framed ++ buf
  waits : next maxLength buf = .ok none

theorem received_nil (maxLength : Nat) (frames : List (List UInt8)) :
    Received maxLength frames [] [] [] :=
  ⟨List.nil_prefix, rfl, rfl⟩

/-- A chunk received keeps the decoder `Received`: it fails no step, hands out the frames that
the chunk completes, and buffers the rest. -/
theorem absorb_received {maxLength : Nat} {frames : List (List UInt8)}
    (hfits : ∀ f ∈ frames, Fits maxLength f) {pre chunk buf : List UInt8}
    {out : List (List UInt8)} (hr : Received maxLength frames pre out buf)
    (hpre : pre ++ chunk <+: frames.flatMap framed) :
    ∃ out' buf', absorb maxLength (out, .ok buf) chunk = (out', .ok buf') ∧
      Received maxLength frames (pre ++ chunk) out' buf' := by
  obtain ⟨rest, rfl⟩ := hr.out_prefix
  have hrest : ∀ f ∈ rest, Fits maxLength f := fun f hf => hfits f (by simp [hf])
  have hbuf : buf ++ chunk <+: rest.flatMap framed := by
    rw [hr.bytes, List.flatMap_append, List.append_assoc] at hpre
    exact (List.prefix_append_right_inj _).mp hpre
  -- the buffer and the chunk are the next frames and the first bytes of the one after
  obtain ⟨k, q, hq, hwait⟩ := prefix_stream hrest hbuf
  refine ⟨out ++ rest.take k, q, ?_, ⟨?_, ?_, hwait⟩⟩
  · rw [absorb]
    dsimp only
    rw [hq, decodeAll_stream (fun f hf => hrest f (List.mem_of_mem_take hf)) hwait]
  · exact (List.prefix_append_right_inj out).mpr (List.take_prefix k rest)
  · rw [hr.bytes, List.append_assoc, hq, List.flatMap_append, List.append_assoc]

/-- After the first `i` chunks of a stream, the decoder is `Received`. -/
theorem receive_take {maxLength : Nat} {frames chunks : List (List UInt8)}
    (hfits : ∀ f ∈ frames, Fits maxLength f) (hsplit : chunks.flatten = frames.flatMap framed) :
    ∀ i ≤ chunks.length, ∃ out buf, receive maxLength (chunks.take i) = (out, .ok buf) ∧
      Received maxLength frames (chunks.take i).flatten out buf
  | 0, _ => ⟨[], [], rfl, received_nil _ _⟩
  | i + 1, hi => by
    obtain ⟨out, buf, hrun, hr⟩ := receive_take hfits hsplit i (by omega)
    have htake : chunks.take (i + 1) = chunks.take i ++ [chunks[i]] :=
      List.take_succ_eq_append_getElem (by omega)
    have hpre : (chunks.take i).flatten ++ chunks[i] <+: frames.flatMap framed := by
      have hall := congrArg List.flatten (List.take_append_drop (i + 1) chunks)
      rw [htake, List.flatten_append, List.flatten_append, List.flatten_singleton] at hall
      exact ⟨_, hall.trans hsplit⟩
    obtain ⟨out', buf', habs, hr'⟩ := absorb_received hfits hr hpre
    refine ⟨out', buf', ?_, ?_⟩
    · rw [htake, receive, List.foldl_append, ← receive, hrun]
      exact habs
    · rw [htake, List.flatten_append, List.flatten_singleton]
      exact hr'

/-- A decoder that has received a whole stream has handed out every frame and buffers
nothing. -/
theorem Received.complete {maxLength : Nat} {frames out : List (List UInt8)} {buf : List UInt8}
    (hfits : ∀ f ∈ frames, Fits maxLength f)
    (hr : Received maxLength frames (frames.flatMap framed) out buf) : out = frames ∧ buf = [] := by
  obtain ⟨rest, rfl⟩ := hr.out_prefix
  have hbuf : buf = rest.flatMap framed := by
    have h := hr.bytes
    rw [List.flatMap_append] at h
    exact (List.append_cancel_left h).symm
  cases rest with
  | nil => exact ⟨by simp, hbuf⟩
  | cons g rest =>
    -- a whole frame in the buffer would have been handed out
    have hg := next_framed (hfits g (by simp)) (rest.flatMap framed)
    rw [← List.flatMap_cons, ← hbuf, hr.waits] at hg
    cases hg

/-- A step fails exactly when the buffer holds four bytes whose length is negative or above the
maximum. -/
theorem next_error_iff (maxLength : Nat) (buf : List UInt8) :
    (∃ e, next maxLength buf = .error e) ↔
      ∃ b0 b1 b2 b3 rest, buf = b0 :: b1 :: b2 :: b3 :: rest ∧
        ((BigEndian.toInt32 [b0, b1, b2, b3]).toInt < 0 ∨
          (maxLength : Int) < (BigEndian.toInt32 [b0, b1, b2, b3]).toInt) := by
  match buf with
  | [] | [_] | [_, _] | [_, _, _] => simp [next]
  | b0 :: b1 :: b2 :: b3 :: rest =>
    have hneg : BigEndian.toInt32 [b0, b1, b2, b3] < 0
        ↔ (BigEndian.toInt32 [b0, b1, b2, b3]).toInt < 0 := by
      rw [Int32.lt_iff_toInt_lt]
      rfl
    simp only [next]
    constructor
    · rintro ⟨e, he⟩
      refine ⟨b0, b1, b2, b3, rest, rfl, ?_⟩
      split at he
      · exact .inl (hneg.mp ‹_›)
      · split at he
        · have := mt hneg.mpr ‹_›
          exact .inr (by omega)
        · split at he <;> cases he
    · rintro ⟨_, _, _, _, _, h, hlen⟩
      cases h
      by_cases h0 : BigEndian.toInt32 [b0, b1, b2, b3] < 0
      · exact ⟨_, if_pos h0⟩
      · rw [if_neg h0]
        have := mt hneg.mpr h0
        exact ⟨_, if_pos (by omega)⟩

/-- **Stream framing.** Take frames that fit the decoder and cut the stream of them into any
chunks. Fed these chunks in turn from an empty buffer, the decoder fails no step and, after the
first `i` chunks, has handed out exactly the frames that they complete, in order, and buffers
exactly the bytes received and not handed out, on which its last step found nothing; in the end
it has handed out every frame and buffers nothing. A step fails exactly on four bytes whose
length is negative or above the maximum. -/
theorem receive_stream (maxLength : Nat) (frames chunks : List (List UInt8))
    (hfits : ∀ f ∈ frames, f.length ≤ maxLength ∧ f.length < Nat.pow 2 31)
    (hsplit : chunks.flatten = frames.flatMap framed) :
    (∀ i ≤ chunks.length, ∃ out buf, receive maxLength (chunks.take i) = (out, .ok buf) ∧
        Received maxLength frames (chunks.take i).flatten out buf) ∧
      receive maxLength chunks = (frames, .ok []) ∧
      ∀ buf, (∃ e, next maxLength buf = .error e) ↔
        ∃ b0 b1 b2 b3 rest, buf = b0 :: b1 :: b2 :: b3 :: rest ∧
          ((BigEndian.toInt32 [b0, b1, b2, b3]).toInt < 0 ∨
            (maxLength : Int) < (BigEndian.toInt32 [b0, b1, b2, b3]).toInt) := by
  have hrun := receive_take hfits hsplit
  refine ⟨hrun, ?_, next_error_iff maxLength⟩
  obtain ⟨out, buf, hout, hr⟩ := hrun chunks.length (Nat.le_refl _)
  rw [List.take_length] at hout hr
  rw [hsplit] at hr
  obtain ⟨rfl, rfl⟩ := hr.complete hfits
  exact hout

/-- A frame `/a` and an empty frame, cut inside the first length and inside the first body. -/
theorem receive_stream_cut :
    receive 8 [[0, 0], [0, 2, 47], [97, 0, 0, 0, 0]] = ([[47, 97], []], .ok []) :=
  (receive_stream 8 [[47, 97], []] [[0, 0], [0, 2, 47], [97, 0, 0, 0, 0]] (by decide) rfl).2.1

end Ensemble.Frame
