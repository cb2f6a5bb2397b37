import LittleComputer.Proofs.Bytes

/-!
# The order of bytes is the order of characters

UTF-8 gives a greater character a greater first byte, or the same first byte and greater ones behind
it. So strings that are sorted character by character are sorted byte by byte as well.
-/

namespace LittleComputer

namespace Text

theorem byte_cons_lt {a b : Nat} {s t : List UInt8} (hb : b < 256) (hle : a ≤ b)
    (h : a = b → s < t) :
    UInt8.ofNat a :: s < UInt8.ofNat b :: t := by
  rw [List.cons_lt_cons_iff]
  rcases Nat.lt_or_eq_of_le hle with hlt | rfl
  · left
    rw [UInt8.lt_iff_toNat_lt, UInt8.toNat_ofNat_of_lt' (Nat.lt_trans hlt hb),
      UInt8.toNat_ofNat_of_lt' hb]
    exact hlt
  · exact .inr ⟨rfl, h rfl⟩

/-- The bytes of a character are less than those of a greater one, whatever stands behind them. -/
theorem utf8EncodeChar_lt {c d : Char} (h : c < d) (s t : List UInt8) :
    String.utf8EncodeChar c ++ s < String.utf8EncodeChar d ++ t := by
  have hlt : c.val.toNat < d.val.toNat := h
  have hd : d.val.toNat < 0x110000 := by
    rcases d.valid with hlow | hhigh
    · exact Nat.lt_trans hlow (by decide)
    · exact hhigh.2
  unfold String.utf8EncodeChar
  generalize c.val.toNat = v at *
  generalize d.val.toNat = w at *
  simp only
  -- by the number of bytes: with fewer of them the first byte is less already, and with as many
  -- they are the digits of the two numbers from the highest on
  by_cases hone : w ≤ 127
  · rw [if_pos (by omega), if_pos hone]
    exact byte_cons_lt (by omega) (by omega) (by omega)
  rw [if_neg hone]
  by_cases htwo : w ≤ 2047
  · rw [if_pos htwo]
    split
    · exact byte_cons_lt (by omega) (by omega) (by omega)
    · rw [if_pos (by omega)]
      exact byte_cons_lt (by omega) (by omega) fun _ =>
        byte_cons_lt (by omega) (by omega) (by omega)
  rw [if_neg htwo]
  by_cases hthree : w ≤ 65535
  · rw [if_pos hthree]
    split
    · exact byte_cons_lt (by omega) (by omega) (by omega)
    split
    · exact byte_cons_lt (by omega) (by omega) (by omega)
    · rw [if_pos (by omega)]
      exact byte_cons_lt (by omega) (by omega) fun _ => byte_cons_lt (by omega) (by omega) fun _ =>
        byte_cons_lt (by omega) (by omega) (by omega)
  rw [if_neg hthree]
  split
  · exact byte_cons_lt (by omega) (by omega) (by omega)
  split
  · exact byte_cons_lt (by omega) (by omega) (by omega)
  split
  · exact byte_cons_lt (by omega) (by omega) (by omega)
  · exact byte_cons_lt (by omega) (by omega) fun _ => byte_cons_lt (by omega) (by omega) fun _ =>
      byte_cons_lt (by omega) (by omega) fun _ => byte_cons_lt (by omega) (by omega) (by omega)

theorem toBytes_map_lt {cs ds : List Char} (h : cs < ds) :
    toBytes (cs.map .char) < toBytes (ds.map .char) := by
  induction cs generalizing ds with
  | nil =>
    cases ds with
    | nil => cases h
    | cons d ds =>
      cases hbytes : toBytes ((d :: ds).map .char) with
      | nil => cases eq_nil_of_toBytes hbytes
      | cons b bytes => exact List.nil_lt_cons b bytes
  | cons c cs ih =>
    cases ds with
    | nil => cases h
    | cons d ds =>
      rw [List.map_cons, List.map_cons, toBytes_cons, toBytes_cons]
      rcases List.cons_lt_cons_iff.mp h with hlt | ⟨rfl, hrest⟩
      · exact utf8EncodeChar_lt hlt _ _
      · exact List.append_left_lt (ih hrest)

/-- A string that comes before another one does so in the order of their bytes. -/
theorem toBytes_lt {s t : String} (h : s < t) : toBytes s < toBytes t :=
  toBytes_map_lt (String.lt_iff.mp h)

end Text

end LittleComputer
