import CrossChain.Bytes
/-! Writing BCS. Numbers have fixed width and start with the least significant byte; lengths
are ULEB128 numbers; a list is its length and its items. -/
namespace CrossChain.Bcs

def u8 (n : UInt8) : Bytes := [n]

def u16 (n : UInt16) : Bytes := Bytes.ofNatLE 2 n.toNat

def u32 (n : UInt32) : Bytes := Bytes.ofNatLE 4 n.toNat

def u64 (n : UInt64) : Bytes := Bytes.ofNatLE 8 n.toNat

def u256 (n : U256) : Bytes := Bytes.ofNatLE 32 n.toNat

def bool (b : Bool) : Bytes := [if b then 1 else 0]

/-- Seven bits a byte from the least significant on; all bytes but the last are marked. The
first argument bounds the number of marked bytes. -/
def digits : Nat → Nat → Bytes
  | 0, n => [UInt8.ofNat n]
  | count + 1, n =>
    if n < 128 then [UInt8.ofNat n] else UInt8.ofNat (n % 128 + 128) :: digits count (n / 128)

def length (n : Nat) : Bytes := digits n n

/-- The bound does not matter once it is no less than the number. -/
theorem digits_eq_of_le {n a b : Nat} (ha : n ≤ a) (hb : n ≤ b) : digits a n = digits b n := by
  induction a generalizing n b with
  | zero =>
    obtain rfl : n = 0 := by omega
    cases b <;> rfl
  | succ a ih =>
    cases b with
    | zero =>
      obtain rfl : n = 0 := by omega
      rfl
    | succ b =>
      simp only [digits]
      split
      · rfl
      · rw [ih (b := b) (by omega) (by omega)]

theorem length_of_lt {n : Nat} (h : n < 128) : length n = [UInt8.ofNat n] := by
  cases n with
  | zero => rfl
  | succ n => simp [length, digits, h]

theorem length_of_le {n : Nat} (h : 128 ≤ n) :
    length n = UInt8.ofNat (n % 128 + 128) :: length (n / 128) := by
  obtain ⟨m, rfl⟩ : ∃ m, n = m + 1 := ⟨n - 1, by omega⟩
  rw [length, digits, if_neg (by omega), length,
    digits_eq_of_le (a := m) (b := (m + 1) / 128) (by omega) (by omega)]

def bytes (bs : Bytes) : Bytes := length bs.length ++ bs

def address (w : Bytes32) : Bytes := w.toBytes

def addresses (ws : List Bytes32) : Bytes := length ws.length ++ ws.flatMap address

def bytesList (items : List Bytes) : Bytes := length items.length ++ items.flatMap bytes

end CrossChain.Bcs
