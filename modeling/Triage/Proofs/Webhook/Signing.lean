import Triage.Proofs.Digest.Blocks
import Triage.Webhook.Signature

/-!
# Signatures are accepted

A signature consists of small hexadecimal digits, so it does not begin with the mark, is ASCII and is
left alone by lower case.  Hence the signature of a body is accepted for this body, with the mark in
front of it and without (`verify?_sign`).
-/

namespace Triage

namespace Text

/-- A small hexadecimal digit. -/
def IsHex (c : Char) : Prop := ∃ value < 16, c = digitChar value

theorem isHex_of_mem_hexDigits {width n : Nat} {c : Char} (h : c ∈ hexDigits width n) : IsHex c := by
  induction width generalizing n with
  | zero => cases h
  | succ width ih =>
      rw [hexDigits, List.mem_append, List.mem_singleton] at h
      rcases h with hFront | rfl
      · exact ih hFront
      · exact ⟨n % 16, Nat.mod_lt n (by decide), rfl⟩

theorem isHex_of_mem_hexOfBytes {bytes : List UInt8} {c : Char}
    (h : c ∈ (hexOfBytes bytes).toList) : IsHex c := by
  rw [hexOfBytes, String.toList_ofList, List.mem_flatMap] at h
  obtain ⟨b, -, hDigit⟩ := h
  exact isHex_of_mem_hexDigits hDigit

theorem length_hexDigits (width n : Nat) : (hexDigits width n).length = width := by
  induction width generalizing n with
  | zero => rfl
  | succ width ih => rw [hexDigits, List.length_append, ih, List.length_singleton]

theorem length_hexOfBytes (bytes : List UInt8) :
    (hexOfBytes bytes).toList.length = 2 * bytes.length := by
  rw [hexOfBytes, String.toList_ofList, length_flatMap_of_eq fun b _ => length_hexDigits 2 b.toNat]

/-- Small hexadecimal digits are ASCII and lower case, and no mark begins with one. -/
theorem IsHex.facts {c : Char} (h : IsHex c) :
    c.toNat < 128 ∧ lowerForAscii c = c ∧ c ≠ 's' := by
  obtain ⟨value, hValue, rfl⟩ := h
  have hAll : ∀ value < 16, (digitChar value).toNat < 128 ∧
      lowerForAscii (digitChar value) = digitChar value ∧ digitChar value ≠ 's' := by decide
  exact hAll value hValue

end Text

namespace Webhook

theorem length_hmacSha256 (key message : List UInt8) :
    (Digest.hmacSha256 key message).length = 32 := by
  rw [Digest.hmacSha256]
  exact Digest.length_sha256 _

theorem length_sign (body : List UInt8) (secret : String) : (sign body secret).toList.length = 64 := by
  rw [sign, Text.length_hexOfBytes, length_hmacSha256]

theorem isHex_of_mem_sign {body : List UInt8} {secret : String} {c : Char}
    (h : c ∈ (sign body secret).toList) : Text.IsHex c :=
  Text.isHex_of_mem_hexOfBytes h

/-- A signature is its own lower case. -/
theorem lower_sign (body : List UInt8) (secret : String) :
    (sign body secret).toList.map Text.lowerForAscii = (sign body secret).toList := by
  have hEach : ∀ c ∈ (sign body secret).toList, Text.lowerForAscii c = c := fun c hc =>
    (isHex_of_mem_sign hc).facts.2.1
  exact (List.map_congr_left hEach).trans (List.map_id' _)

/-- A signature does not begin with the mark. -/
theorem dropMark_sign (body : List UInt8) (secret : String) :
    dropMark defaultMark (sign body secret).toList = (sign body secret).toList := by
  have hMark : defaultMark.toList = 's' :: "ha256=".toList := rfl
  have hHex : ∀ c ∈ (sign body secret).toList, Text.IsHex c := fun c => isHex_of_mem_sign
  have hLength := length_sign body secret
  cases hSigned : (sign body secret).toList with
  | nil => simp [hSigned] at hLength
  | cons c rest =>
      have hOther : c ≠ 's' := (hHex c (hSigned ▸ List.mem_cons_self)).facts.2.2
      rw [dropMark, hMark, List.isPrefixOf, if_neg]
      simp [hOther.symm]

theorem dropMark_marked (mark : String) (signature : List Char) :
    dropMark mark (mark.toList ++ signature) = signature := by
  have hPrefix : mark.toList.isPrefixOf (mark.toList ++ signature) = true := by simp
  rw [dropMark, if_pos hPrefix, ← String.length_toList, List.drop_left]

/-- What is left of the signature of a body once the mark is dropped is accepted. -/
theorem verify?_of_dropMark {body : List UInt8} {secret signature : String} (hSecret : secret ≠ "")
    (hSignature : signature ≠ "")
    (h : dropMark defaultMark signature.toList = (sign body secret).toList) :
    verify? body secret signature defaultMark = some true := by
  have hAscii : (sign body secret).toList.all (fun c => decide (c.toNat < 128)) = true := by
    rw [List.all_eq_true]
    intro c hc
    exact decide_eq_true (isHex_of_mem_sign hc).facts.1
  have hGiven : (secret.isEmpty || signature.isEmpty) = false := by simp [hSecret, hSignature]
  simp only [verify?, hGiven, Bool.false_eq_true, if_false, h, lower_sign, hAscii, if_true,
    decide_true]

/-- The signature of a body under a secret is accepted, with the mark in front and without. -/
theorem verify?_sign (body : List UInt8) {secret : String} (hSecret : secret ≠ "") :
    verify? body secret (sign body secret) defaultMark = some true ∧
      verify? body secret (defaultMark ++ sign body secret) defaultMark = some true := by
  constructor
  · refine verify?_of_dropMark hSecret ?_ (dropMark_sign body secret)
    intro hEmpty
    have hLength := length_sign body secret
    simp [hEmpty] at hLength
  · refine verify?_of_dropMark hSecret ?_ ?_
    · intro hEmpty
      have hLength := congrArg String.length hEmpty
      simp [defaultMark] at hLength
    · rw [String.toList_append, dropMark_marked]

end Webhook
end Triage
