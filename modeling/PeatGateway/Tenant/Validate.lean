import PeatGateway.Lib.Text
import PeatGateway.Models

/-!
# Input validation

The checks of `src/tenant/manager.rs` on the fields of new records.  Lengths and
characters are those of the UTF-8 bytes.

## Main definitions

* `validateIdentifier`, `validateDisplayName`, `validateNonEmpty`, `validateSinkType`,
  `validateHttpUrl`, `validateIssuerUrl`.
* `IsIdentifier` — the strings `validate_identifier` accepts.

## Main results

* `isIdentifier_of_validate` — acceptance does not depend on the name of the field.
* `IsIdentifier.nulFree` — **an accepted identifier holds no NUL**.
-/

namespace PeatGateway

open Text

/-- `MAX_IDENTIFIER_LEN`. -/
def maxIdentifierLen : ℕ := 128

/-- `MAX_DISPLAY_NAME_LEN`. -/
def maxDisplayNameLen : ℕ := 1024

/-- The bytes an identifier may hold. -/
def identifierByte (b : UInt8) : Bool :=
  isAsciiAlphanumeric b || b == 46 || b == 95 || b == 45

/-- An identifier matches `^[a-zA-Z0-9][a-zA-Z0-9._-]*$` and has at most 128 bytes. -/
def validateIdentifier (value field : String) : Except Error Unit :=
  match utf8 value with
  | [] => .error s!"{field} must not be empty"
  | b :: bs =>
    if (b :: bs).length > maxIdentifierLen then
      .error s!"{field} exceeds maximum length ({bs.length + 1} > {maxIdentifierLen})"
    else if !isAsciiAlphanumeric b then
      .error s!"{field} must start with an alphanumeric character"
    else if !(b :: bs).all identifierByte then
      .error s!"{field} contains invalid characters (allowed: a-zA-Z0-9._-)"
    else .ok ()

/-- A display name is not empty and has at most 1024 bytes. -/
def validateDisplayName (value : String) : Except Error Unit :=
  if (utf8 value).isEmpty then .error "display_name must not be empty"
  else if (utf8 value).length > maxDisplayNameLen then
    .error s!"display_name exceeds maximum length ({(utf8 value).length} > {maxDisplayNameLen})"
  else .ok ()

/-- A required field is not blank. -/
def validateNonEmpty (value field : String) : Except Error Unit :=
  if (trim value).toList.isEmpty then .error s!"{field} must not be empty" else .ok ()

/-- The URL uses `http` or `https`. -/
def validateHttpUrl (url field : String) : Except Error Unit :=
  if url.toList.isEmpty then .error s!"{field} must not be empty"
  else if !startsWith url "http://" && !startsWith url "https://" then
    .error s!"{field} must use http:// or https:// scheme"
  else .ok ()

/-- The contents of a sink type. -/
def validateSinkType : CdcSinkType → Except Error Unit
  | .webhook url => validateHttpUrl url "webhook url"
  | .nats subjectPrefix => validateNonEmpty subjectPrefix "subject_prefix"
  | .kafka topic => validateNonEmpty topic "topic"

/-- An issuer uses `https`. -/
def validateIssuerUrl (url : String) : Except Error Unit :=
  if url.toList.isEmpty then .error "issuer_url must not be empty"
  else if !startsWith url "https://" then .error "issuer_url must use https:// scheme"
  else .ok ()

/-! ### Accepted identifiers -/

/-- The strings `validate_identifier` accepts. -/
def IsIdentifier (value : String) : Prop := validateIdentifier value "org_id" = .ok ()

instance (value : String) : Decidable (IsIdentifier value) :=
  inferInstanceAs (Decidable (_ = _))

theorem validateIdentifier_eq_ok {value field : String}
    (h : validateIdentifier value field = .ok ()) :
    utf8 value ≠ [] ∧ (utf8 value).length ≤ maxIdentifierLen ∧
      (utf8 value).head?.all isAsciiAlphanumeric = true ∧
      (utf8 value).all identifierByte = true := by
  unfold validateIdentifier at h
  split at h
  · cases h
  · next b bs hb =>
    rw [hb]
    split at h
    · cases h
    · next hlen =>
      split at h
      · cases h
      · next hhead =>
        split at h
        · cases h
        · next hall =>
          exact ⟨List.cons_ne_nil _ _, Nat.le_of_not_lt hlen, by simpa using hhead,
            by simpa using hall⟩

/-- Acceptance does not depend on the name of the field. -/
theorem isIdentifier_of_validate {value field : String}
    (h : validateIdentifier value field = .ok ()) : IsIdentifier value := by
  obtain ⟨hne, hlen, hhead, hall⟩ := validateIdentifier_eq_ok h
  unfold IsIdentifier validateIdentifier
  cases hb : utf8 value with
  | nil => exact absurd hb hne
  | cons b bs =>
    rw [hb] at hlen hhead hall
    dsimp only
    rw [if_neg (Nat.not_lt.mpr hlen), if_neg (by simpa using hhead), if_neg (by simp [hall])]

/-- **An accepted identifier holds no NUL**: the byte 0 is none of those allowed. -/
theorem IsIdentifier.nulFree {value : String} (h : IsIdentifier value) : Free '\x00' value := by
  intro hmem
  obtain ⟨-, -, -, hall⟩ := validateIdentifier_eq_ok h
  have hbyte : (0 : UInt8) ∈ utf8 value := List.mem_flatMap.mpr ⟨'\x00', hmem, by decide⟩
  have := List.all_eq_true.mp hall 0 hbyte
  exact absurd this (by decide)

end PeatGateway
