import TimingNode.Tag

namespace TimingNode.Proofs.RegisterWord

open TimingNode.Tag

theorem toNat_toRegister (tag : Tag) :
    tag.toRegister.toNat = tag.channel.toNat * 0x1000000 + tag.value.toNat % 0x1000000 := by
  have hchannel := tag.channel.toNat_lt
  have hmask : (tag.value &&& valueMask).toNat = tag.value.toNat % 0x1000000 :=
    Nat.and_two_pow_sub_one_eq_mod tag.value.toNat 24
  have hshift : (tag.channel.toUInt32 <<< 24).toNat = tag.channel.toNat <<< 24 := by
    simp [UInt32.toNat_shiftLeft, Nat.shiftLeft_eq]
    omega
  have hdisjoint : tag.channel.toNat <<< 24 ||| tag.value.toNat % 0x1000000 =
      tag.channel.toNat <<< 24 + tag.value.toNat % 0x1000000 :=
    (Nat.shiftLeft_add_eq_or_of_lt (Nat.mod_lt _ (by decide)) _).symm
  rw [toRegister, UInt32.toNat_or, hshift, hmask, hdisjoint, Nat.shiftLeft_eq]

theorem channel_ofRegister (word : UInt32) :
    (ofRegister word).channel.toNat = word.toNat / 0x1000000 % 0x80 := by
  have hmask : ((word >>> 24) &&& channelMask).toNat = word.toNat / 0x1000000 % 0x80 := by
    rw [UInt32.toNat_and, UInt32.toNat_shiftRight]
    exact (Nat.and_two_pow_sub_one_eq_mod _ 7).trans
      (congrArg (· % 0x80) (Nat.shiftRight_eq_div_pow word.toNat 24))
  rw [ofRegister, UInt32.toNat_toUInt8, hmask]
  omega

theorem value_ofRegister (word : UInt32) :
    (ofRegister word).value.toNat = word.toNat % 0x1000000 :=
  Nat.and_two_pow_sub_one_eq_mod word.toNat 24

theorem ofRegister_toRegister {tag : Tag} (hchannel : tag.channel.toNat < 0x80)
    (hvalue : tag.value.toNat < 0x1000000) : ofRegister tag.toRegister = tag := by
  have hword := toNat_toRegister tag
  have hchannelEq : (ofRegister tag.toRegister).channel = tag.channel := by
    rw [← UInt8.toNat_inj, channel_ofRegister]
    omega
  have hvalueEq : (ofRegister tag.toRegister).value = tag.value := by
    rw [← UInt32.toNat_inj, value_ofRegister]
    omega
  exact (Tag.mk.injEq _ _ _ _).mpr ⟨hchannelEq, hvalueEq⟩

/-- A word is rebuilt from its tag, except for the top bit, which comes back clear. -/
theorem toRegister_ofRegister (word : UInt32) :
    (ofRegister word).toRegister = word &&& 0x7FFFFFFF := by
  have hmask : (word &&& 0x7FFFFFFF).toNat = word.toNat % 0x80000000 :=
    Nat.and_two_pow_sub_one_eq_mod word.toNat 31
  rw [← UInt32.toNat_inj, toNat_toRegister, channel_ofRegister, value_ofRegister, hmask]
  omega

end TimingNode.Proofs.RegisterWord
