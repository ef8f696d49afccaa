import Ensemble.Error

/-! # Stream framing

Replies arrive on a byte stream, each framed by a four-byte big-endian length. A decoder keeps
the bytes received so far. With fewer than four bytes it waits; a negative length, or one above
the decoder's maximum, is an error; otherwise it waits for the whole frame and then hands out
its body, keeping the bytes after it.
-/

namespace Ensemble.Frame

/-- The longest frame body a decoder accepts by default: 4 MiB. -/
def defaultMaxLength : Nat := 4 * 1024 * 1024

/-- One decoding step on the buffered bytes: a frame body and the bytes after it, nothing yet,
or an error. -/
def next (maxLength : Nat) (buf : List UInt8) : Except Error (Option (List UInt8 × List UInt8)) :=
  match buf with
  | b0 :: b1 :: b2 :: b3 :: rest =>
    let length := BigEndian.toInt32 [b0, b1, b2, b3]
    if length < 0 then .error (.protocol (.negativeFrameLength length))
    else
      let n := length.toInt.toNat
      if maxLength < n then .error (.protocol (.frameTooLong n maxLength))
      else
        let body := rest.take n
        if body.length = n then .ok (some (body, rest.drop n)) else .ok none
  | _ => .ok none

/-- Every frame the buffered bytes complete, in order, and the bytes left after them; within
`fuel` steps. On an error, the frames before it and the error. -/
def drain (maxLength : Nat) : Nat → List UInt8 → List (List UInt8) →
    List (List UInt8) × Except Error (List UInt8)
  | 0, buf, acc => (acc.reverse, .ok buf)
  | fuel + 1, buf, acc =>
    match next maxLength buf with
    | .error e => (acc.reverse, .error e)
    | .ok none => (acc.reverse, .ok buf)
    | .ok (some (body, rest)) => drain maxLength fuel rest (body :: acc)

/-- Every frame the buffered bytes complete, in order, and the bytes left after them. Each frame
takes at least four bytes, so one more step than there are bytes is always enough. -/
def decodeAll (maxLength : Nat) (buf : List UInt8) : List (List UInt8) × Except Error (List UInt8) :=
  drain maxLength (buf.length + 1) buf []

/-- One chunk received: it is appended to the buffer, and every frame the buffer then completes
is handed out after those handed out before. A decoder that has failed stays failed. -/
def absorb (maxLength : Nat) (st : List (List UInt8) × Except Error (List UInt8))
    (chunk : List UInt8) : List (List UInt8) × Except Error (List UInt8) :=
  match st.2 with
  | .ok buf =>
    let (more, rest) := decodeAll maxLength (buf ++ chunk)
    (st.1 ++ more, rest)
  | .error _ => st

/-- A decoder that starts empty and receives the chunks in turn: the frames handed out, in
order, and the bytes left in its buffer, or the error that stopped it. -/
def receive (maxLength : Nat) (chunks : List (List UInt8)) :
    List (List UInt8) × Except Error (List UInt8) :=
  chunks.foldl (absorb maxLength) ([], .ok [])

end Ensemble.Frame
