import SmartnicFw.Snp4.Table.Impl

/-!
This module contains the meaning of the right-aligned export of an integer into a fresh buffer.
-/

theorem writeAt_replicate {n off : Nat} {bytes : List UInt8} (h : off + bytes.length ≤ n)
    : writeAt (List.replicate n 0) off bytes
        = List.replicate off 0 ++ bytes ++ List.replicate (n - (off + bytes.length)) 0 := by
  unfold writeAt
  rw [List.take_replicate, List.drop_replicate]
  congr 3
  omega

namespace exportPadded

variable (paddedBytes : UInt32) (op : Mpz)

-- Nothing wraps around when the integer fits into the buffer and the buffer is not gigantic
theorem padBytes_eq {finalBits : UInt32} (hfit : (finalBits.toNat + 7) / 8 ≤ paddedBytes.toNat)
    (hsmall : finalBits.toNat < 2 ^ 32 - 8)
    : (paddedBytes - (finalBits + 7) / 8).toNat
        = paddedBytes.toNat - (finalBits.toNat + 7) / 8 := by
  have hbytes : ((finalBits + 7) / 8).toNat = (finalBits.toNat + 7) / 8 := by
    rw [UInt32.toNat_div, UInt32.toNat_add]
    show (finalBits.toNat + 7) % 2 ^ 32 / 8 = _
    rw [Nat.mod_eq_of_lt (by omega)]
  rw [UInt32.toNat_sub_of_le]
  . rw [hbytes]
  . rw [UInt32.le_iff_toNat_le, hbytes]
    exact hfit

theorem exportPadded_eq (hfit : (mpzSizeinbase2 op + 7) / 8 ≤ paddedBytes.toNat)
    (hsmall : mpzSizeinbase2 op < 2 ^ 32 - 8)
    : exportPadded paddedBytes (UInt32.ofNat (mpzSizeinbase2 op)) op
        = if op = 0 then
            List.replicate paddedBytes.toNat 0
          else
            List.replicate (paddedBytes.toNat - (mpzSizeinbase2 op + 7) / 8) 0 ++ mpzExport op := by
  have hofNat : (UInt32.ofNat (mpzSizeinbase2 op)).toNat = mpzSizeinbase2 op :=
    UInt32.toNat_ofNat_of_lt' (by simp only [UInt32.size]; omega)
  have hlen := length_mpzExport_le op
  unfold exportPadded calloc
  dsimp only
  rw [padBytes_eq paddedBytes (by rw [hofNat]; exact hfit) (by rw [hofNat]; exact hsmall), hofNat]
  rw [writeAt_replicate (by omega)]
  split
  . next h =>
    simp only [h, mpzExport, ↓reduceIte, List.append_nil, List.length_nil, Nat.add_zero]
    rw [List.replicate_append_replicate]
    congr 1
    omega
  . next h =>
    have hbytes : (mpzExport op).length = (mpzSizeinbase2 op + 7) / 8 := by
      simp [mpzExport, h]
    rw [hbytes, Nat.sub_add_cancel hfit, Nat.sub_self]
    simp

theorem length_exportPadded (hfit : (mpzSizeinbase2 op + 7) / 8 ≤ paddedBytes.toNat)
    (hsmall : mpzSizeinbase2 op < 2 ^ 32 - 8)
    : (exportPadded paddedBytes (UInt32.ofNat (mpzSizeinbase2 op)) op).length
        = paddedBytes.toNat := by
  rw [exportPadded_eq paddedBytes op hfit hsmall]
  split
  . simp
  . next h =>
    have hbytes : (mpzExport op).length = (mpzSizeinbase2 op + 7) / 8 := by
      simp [mpzExport, h]
    simp only [List.length_append, List.length_replicate, hbytes]
    omega

theorem ofBytesBE_exportPadded (hfit : (mpzSizeinbase2 op + 7) / 8 ≤ paddedBytes.toNat)
    (hsmall : mpzSizeinbase2 op < 2 ^ 32 - 8)
    : ofBytesBE (exportPadded paddedBytes (UInt32.ofNat (mpzSizeinbase2 op)) op) = op.natAbs := by
  rw [exportPadded_eq paddedBytes op hfit hsmall]
  split
  . next h =>
    have := ofBytesBE_replicate_zero_append paddedBytes.toNat []
    simpa [h, ofBytesBE] using this
  . rw [ofBytesBE_replicate_zero_append, ofBytesBE_mpzExport]

end exportPadded
