import LittleComputer.Text.Glyph

/-!
# No byte is lost

Reading takes bytes apart into glyphs, and the bytes of the glyphs are the bytes that were read,
whether they are UTF-8 or not. A byte that continues no sequence is a border: what stands before it
is read as if nothing came behind. So a text that is cut where such a byte stands reads the same on
its own.
-/

namespace LittleComputer

namespace Text

/-! ## One glyph -/

theorem scalarFrom?_eq_some {least code k n : Nat} {c : Char}
    (h : (scalarFrom? least code).map (·, k) = some (c, n)) :
    c.val.toNat = code ∧ least ≤ code ∧ k = n := by
  unfold scalarFrom? at h
  by_cases hvalid : least ≤ code ∧ code.isValidChar
  · rw [dif_pos hvalid] at h
    cases h
    exact ⟨rfl, hvalid.1, rfl⟩
  · rw [dif_neg hvalid] at h
    cases h

theorem isTail_iff {b : UInt8} : isTail b = true ↔ b.toNat / 64 = 2 := by
  unfold isTail
  rw [beq_iff_eq]

/-- A sequence lies within the bytes that are there, and it is the UTF-8 form of its character. -/
theorem utf8EncodeChar_of_lead {a : UInt8} {rest : List UInt8} {c : Char} {k : Nat}
    (h : lead? a rest = some (c, k)) :
    k ≤ rest.length ∧ String.utf8EncodeChar c = a :: rest.take k := by
  have hbyte : ∀ {n : Nat} {b : UInt8}, n = b.toNat → UInt8.ofNat n = b := by
    rintro n b rfl
    exact UInt8.ofNat_toNat
  have ha := a.toNat_lt
  unfold lead? at h
  simp only [Bool.and_eq_true, beq_iff_eq, isTail_iff] at h
  split at h
  · obtain ⟨hcode, -, rfl⟩ := scalarFrom?_eq_some h
    refine ⟨Nat.zero_le _, ?_⟩
    unfold String.utf8EncodeChar
    simp only [hcode]
    rw [if_pos (by omega), hbyte rfl]
    rfl
  split at h
  · split at h
    · rename_i b more
      split at h
      · obtain ⟨hcode, hleast, rfl⟩ := scalarFrom?_eq_some h
        refine ⟨Nat.le_add_left 1 more.length, ?_⟩
        unfold String.utf8EncodeChar
        simp only [hcode]
        rw [if_neg (by omega), if_pos (by omega), hbyte (b := a) (by omega),
          hbyte (b := b) (by omega)]
        rfl
      · cases h
    · cases h
  split at h
  · split at h
    · rename_i b c more
      split at h
      · obtain ⟨hcode, hleast, rfl⟩ := scalarFrom?_eq_some h
        refine ⟨Nat.le_add_left 2 more.length, ?_⟩
        unfold String.utf8EncodeChar
        simp only [hcode]
        rw [if_neg (by omega), if_neg (by omega), if_pos (by omega), hbyte (b := a) (by omega),
          hbyte (b := b) (by omega), hbyte (b := c) (by omega)]
        rfl
      · cases h
    · cases h
  split at h
  · split at h
    · rename_i b c d more
      split at h
      · obtain ⟨hcode, hleast, rfl⟩ := scalarFrom?_eq_some h
        refine ⟨Nat.le_add_left 3 more.length, ?_⟩
        unfold String.utf8EncodeChar
        simp only [hcode]
        rw [if_neg (by omega), if_neg (by omega), if_neg (by omega), hbyte (b := a) (by omega),
          hbyte (b := b) (by omega), hbyte (b := c) (by omega), hbyte (b := d) (by omega)]
        rfl
      · cases h
    · cases h
  · cases h

/-- Nothing behind a byte that continues no sequence belongs to a sequence before it. -/
theorem lead?_border {border : UInt8} (hborder : isTail border = false) (a : UInt8)
    (rest behind : List UInt8) :
    lead? a (rest ++ border :: behind) = lead? a rest := by
  unfold lead?
  match rest, behind with
  | [], [] => simp [hborder]
  | [], [_] => simp [hborder]
  | [], _ :: _ :: _ => simp [hborder]
  | [_], [] => simp [hborder]
  | [_], _ :: _ => simp [hborder]
  | [_, _], _ => simp [hborder]
  | _ :: _ :: _ :: _, _ => rfl

/-! ## Whole texts -/

theorem ofBytesFrom_eq (skip : Nat) (bytes : List UInt8) (seen : Text) :
    ofBytesFrom skip bytes seen = seen.reverse ++ ofBytes (bytes.drop skip) := by
  induction bytes generalizing skip seen with
  | nil => simp [ofBytesFrom, ofBytes]
  | cons a rest ih =>
    cases skip with
    | succ k => exact ih k seen
    | zero =>
      rw [List.drop_zero, ofBytes, ofBytesFrom, ofBytesFrom]
      cases lead? a rest with
      | none =>
        simp only
        rw [ih, ih]
        simp
      | some sequence =>
        simp only
        rw [ih, ih]
        simp

theorem ofBytes_of_lead {a : UInt8} {rest : List UInt8} {c : Char} {k : Nat}
    (h : lead? a rest = some (c, k)) : ofBytes (a :: rest) = .char c :: ofBytes (rest.drop k) := by
  rw [ofBytes, ofBytesFrom, h]
  exact ofBytesFrom_eq k rest [.char c]

theorem ofBytes_of_stray {a : UInt8} {rest : List UInt8} (h : lead? a rest = none) :
    ofBytes (a :: rest) = .stray a :: ofBytes rest := by
  rw [ofBytes, ofBytesFrom, h]
  exact ofBytesFrom_eq 0 rest [.stray a]

/-- Induction along the glyphs that bytes are taken apart into. -/
theorem bytes_induction {p : List UInt8 → Prop} (nil : p [])
    (sequence : ∀ a rest c k, lead? a rest = some (c, k) → p (rest.drop k) → p (a :: rest))
    (stray : ∀ a rest, lead? a rest = none → p rest → p (a :: rest)) : ∀ bytes, p bytes
  | [] => nil
  | a :: rest =>
    match h : lead? a rest with
    | some (c, k) => sequence a rest c k h (bytes_induction nil sequence stray (rest.drop k))
    | none => stray a rest h (bytes_induction nil sequence stray rest)
termination_by bytes => bytes.length
decreasing_by
  · rw [List.length_drop, List.length_cons]
    omega
  · exact Nat.lt_succ_self rest.length

theorem toBytes_cons (g : Glyph) (t : Text) : toBytes (g :: t) = g.bytes ++ t.toBytes := rfl

theorem width_eq_length (t : Text) : t.width = t.toBytes.length := by
  have hfold : ∀ n, t.foldl (fun n g => n + g.width) n = n + t.toBytes.length := by
    induction t with
    | nil => intro n; rfl
    | cons g rest ih =>
      intro n
      rw [List.foldl_cons, ih, toBytes_cons, List.length_append]
      exact Nat.add_assoc n g.width _
  rw [width, hfold, Nat.zero_add]

/-- The bytes of what was read are the bytes that were there. -/
theorem toBytes_ofBytes (bytes : List UInt8) : (ofBytes bytes).toBytes = bytes := by
  induction bytes using bytes_induction with
  | nil => rfl
  | sequence a rest c k h ih =>
    have hbytes : (Glyph.char c).bytes = a :: rest.take k := (utf8EncodeChar_of_lead h).2
    rw [ofBytes_of_lead h, toBytes_cons, ih, hbytes, List.cons_append, List.take_append_drop]
  | stray a rest h ih =>
    rw [ofBytes_of_stray h, toBytes_cons, ih]
    rfl

/-- Bytes on both sides of a border are read apart. -/
theorem ofBytes_border {border : UInt8} (hborder : isTail border = false)
    (bytes behind : List UInt8) :
    ofBytes (bytes ++ border :: behind) = ofBytes bytes ++ ofBytes (border :: behind) := by
  induction bytes using bytes_induction with
  | nil => rfl
  | sequence a rest c k h ih =>
    have hwhole := (lead?_border hborder a rest behind).trans h
    rw [List.cons_append, ofBytes_of_lead hwhole, ofBytes_of_lead h,
      List.drop_append_of_le_length (utf8EncodeChar_of_lead h).1, ih, List.cons_append]
  | stray a rest h ih =>
    have hwhole := (lead?_border hborder a rest behind).trans h
    rw [List.cons_append, ofBytes_of_stray hwhole, ofBytes_of_stray h, ih, List.cons_append]

theorem eq_nil_of_toBytes {t : Text} (h : t.toBytes = []) : t = [] := by
  cases t with
  | nil => rfl
  | cons g rest =>
    rw [toBytes_cons, List.append_eq_nil_iff] at h
    cases g with
    | char c => exact absurd h.1 String.utf8EncodeChar_ne_nil
    | stray b => cases h.1

/-- Texts that start another one are told apart by their bytes. -/
theorem eq_of_same_bytes {t u v : Text} (hu : u <+: t) (hv : v <+: t) (h : u.toBytes = v.toBytes) :
    u = v := by
  have hequal : ∀ {u v : Text}, u <+: v → u.toBytes = v.toBytes → u = v := by
    rintro u _ ⟨more, rfl⟩ h
    rw [toBytes_append, List.self_eq_append_right] at h
    rw [eq_nil_of_toBytes h, List.append_nil]
  rcases List.prefix_or_prefix_of_prefix hu hv with hfirst | hsecond
  · exact hequal hfirst h
  · exact (hequal hsecond h.symm).symm

/-- What stands before a border reads the same on its own. -/
theorem ofBytes_toBytes_of_cut {bytes : List UInt8} {t behind : Text} {g : Glyph} {border : UInt8}
    (hg : g.bytes = [border]) (hborder : isTail border = false)
    (h : ofBytes bytes = t ++ g :: behind) :
    ofBytes t.toBytes = t := by
  have hbytes : bytes = t.toBytes ++ border :: behind.toBytes := by
    rw [← toBytes_ofBytes bytes, h, toBytes_append, toBytes_cons, hg]
    rfl
  have hcut := ofBytes_border hborder t.toBytes behind.toBytes
  rw [← hbytes] at hcut
  refine eq_of_same_bytes (t := ofBytes bytes) ?_ ?_ (toBytes_ofBytes _)
  · rw [hcut]
    exact List.prefix_append _ _
  · rw [h]
    exact List.prefix_append _ _

end Text

end LittleComputer
