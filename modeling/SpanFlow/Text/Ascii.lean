namespace SpanFlow.Ascii

def lower (s : String) : String :=
  String.ofList (s.toList.map Char.toLower)

def sameIgnoringCase (a b : String) : Bool :=
  lower a == lower b

@[simp] theorem toList_lower (s : String) : (lower s).toList = s.toList.map Char.toLower := by
  simp [lower]

theorem toLower_toLower (c : Char) : c.toLower.toLower = c.toLower := by
  have step : 'a'.val - 'A'.val = 32 := by decide
  have hA : 'A'.val.toNat = 65 := rfl
  have hZ : 'Z'.val.toNat = 90 := rfl
  have h32 : (32 : UInt32).toNat = 32 := rfl
  delta Char.toLower
  simp only [step]
  split
  · split
    · next h₁ h₂ =>
      simp only [ge_iff_le, UInt32.le_iff_toNat_le, UInt32.toNat_add] at h₁ h₂
      omega
    · rfl
  · rfl

@[simp] theorem lower_lower (s : String) : lower (lower s) = lower s := by
  have h : Char.toLower ∘ Char.toLower = Char.toLower := funext toLower_toLower
  simp [lower, h]

@[simp] theorem lower_append (a b : String) : lower (a ++ b) = lower a ++ lower b := by
  simp [lower]

end SpanFlow.Ascii
