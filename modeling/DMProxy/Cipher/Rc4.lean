import DMProxy.Text.Bytes

/-!
# RC4

A stream cipher adds a keystream to its input.  Applied twice under one key it gives the input
back.
-/

namespace DMProxy.Cipher

open DMProxy.Text

/-- What is relied on of a stream cipher: under each key it is its own inverse, and it changes no
length. -/
structure StreamCipher (cipher : Bytes → Bytes → Bytes) : Prop where
  involutive : ∀ key data, cipher key (cipher key data) = data
  length : ∀ key data, (cipher key data).length = data.length

/-- The keystream is added byte by byte. -/
def addStream (stream : Nat → Bytes) (data : Bytes) : Bytes :=
  List.zipWith (· ^^^ ·) data (stream data.length)

theorem zipWith_xor_zipWith {data stream : Bytes} (long : data.length = stream.length) :
    List.zipWith (· ^^^ ·) (List.zipWith (· ^^^ ·) data stream) stream = data := by
  induction data generalizing stream with
  | nil => rfl
  | cons byte data ih =>
      cases stream with
      | nil => cases long
      | cons mask stream =>
          simp only [List.length_cons, Nat.add_right_cancel_iff] at long
          rw [List.zipWith_cons_cons, List.zipWith_cons_cons, ih long, UInt8.xor_assoc,
            UInt8.xor_self, UInt8.xor_zero]

/-- A keystream that does not depend on the data makes a stream cipher. -/
theorem streamCipher_addStream {stream : Bytes → Nat → Bytes}
    (long : ∀ key count, (stream key count).length = count) :
    StreamCipher fun key => addStream (stream key) := by
  have same (key data : Bytes) : (addStream (stream key) data).length = data.length := by
    rw [addStream, List.length_zipWith, long, Nat.min_self]
  refine ⟨fun key data => ?_, same⟩
  rw [addStream, same, addStream]
  exact zipWith_xor_zipWith (long key data.length).symm

/-! ## The keystream -/

/-- The state of the generator. -/
structure Rc4 where
  box : Array UInt8
  i : UInt8
  j : UInt8
  deriving DecidableEq, Repr

namespace Rc4

def boxAt (box : Array UInt8) (index : UInt8) : UInt8 :=
  box.getD index.toNat 0

/-- One round of the key schedule. -/
def mix (key : Bytes) (state : Array UInt8 × UInt8) (round : Nat) : Array UInt8 × UInt8 :=
  let j := state.2 + boxAt state.1 round.toUInt8 + key.getD (round % key.length) 0
  (state.1.swapIfInBounds round j.toNat, j)

/-- The state under a key. -/
def start (key : Bytes) : Rc4 where
  box := ((List.range 256).foldl (mix key) ((Array.range 256).map Nat.toUInt8, 0)).1
  i := 0
  j := 0

/-- The next byte of the keystream. -/
def next (state : Rc4) : UInt8 × Rc4 :=
  let i := state.i + 1
  let j := state.j + boxAt state.box i
  let box := state.box.swapIfInBounds i.toNat j.toNat
  (boxAt box (boxAt box i + boxAt box j), ⟨box, i, j⟩)

def stream : Nat → Rc4 → Bytes
  | 0, _ => []
  | count + 1, state => state.next.1 :: stream count state.next.2

theorem length_stream (count : Nat) (state : Rc4) : (stream count state).length = count := by
  induction count generalizing state with
  | zero => rfl
  | succ count ih => rw [stream, List.length_cons, ih]

end Rc4

/-- RC4 under a key. -/
def rc4 (key data : Bytes) : Bytes :=
  addStream (fun count => Rc4.stream count (.start key)) data

theorem streamCipher_rc4 : StreamCipher rc4 :=
  streamCipher_addStream fun key count => Rc4.length_stream count (.start key)

end DMProxy.Cipher
