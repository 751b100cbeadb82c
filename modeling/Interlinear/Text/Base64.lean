/-!
# Bytes in base 64

Four letters stand for three bytes.  Characters outside the alphabet are skipped.  Two padding signs
after two letters, or one after three, end the text; elsewhere padding signs are skipped, and a text
that ends inside a group of four is refused.
-/

namespace Interlinear.Text

def alphabet64 : List Char :=
  "ABCDEFGHIJKLMNOPQRSTUVWXYZabcdefghijklmnopqrstuvwxyz0123456789+/".toList

/-- The six bits of a letter. -/
def sixBits? (c : Char) : Option Nat :=
  alphabet64.findIdx? (· == c)

/-- The bytes from inside a group: the number of its letters so far, what the last of them left
over, and the number of padding signs since. -/
def decode64From (letters left pads : Nat) : List Char → Option (List UInt8)
  | [] => if letters = 0 then some [] else none
  | c :: cs =>
      if c = '=' then
        if letters < 2 then decode64From letters left pads cs
        else if 4 ≤ letters + pads + 1 then some []
        else decode64From letters left (pads + 1) cs
      else
        match sixBits? c with
        | none => decode64From letters left pads cs
        | some bits =>
            let byte (high low : Nat) := UInt8.ofNat (high + low)
            match letters with
            | 0 => decode64From 1 bits 0 cs
            | 1 => (decode64From 2 (bits % 16) 0 cs).map (byte (left * 4) (bits / 16) :: ·)
            | 2 => (decode64From 3 (bits % 4) 0 cs).map (byte (left * 16) (bits / 4) :: ·)
            | _ => (decode64From 0 0 0 cs).map (byte (left * 64) bits :: ·)

def decode64 (cs : List Char) : Option (List UInt8) :=
  decode64From 0 0 0 cs

end Interlinear.Text
