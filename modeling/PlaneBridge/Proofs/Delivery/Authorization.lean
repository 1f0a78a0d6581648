import Mathlib.Data.List.Basic
import PlaneBridge.Delivery.Authorization
import PlaneBridge.Proofs.Text.Base64
import PlaneBridge.Proofs.Text.Utf8

/-!
# What an authorization says

The header of an authorization carries the user's name, a colon and the password, and whoever reads
it finds just these bytes: `basicAuthorization_readBack`.  The name ends where the first colon
stands, so of names without a colon the header tells both parts.
-/

namespace PlaneBridge.Delivery

open Text

/-- The byte of a colon. -/
def colon : UInt8 := 0x3A

theorem credentials_eq (username password : String) :
    credentials username password =
      username.toUTF8.toList ++ colon :: password.toUTF8.toList := by
  have hcolon : ":".toUTF8.toList = [colon] := by
    rw [Utf8.bytes_eq_flatMap]
    rfl
  rw [credentials, Utf8.bytes_append, Utf8.bytes_append, hcolon, List.append_assoc]
  rfl

theorem credentials_of_basicAuthorization {username password username' password' : String}
    (h : basicAuthorization username password = basicAuthorization username' password') :
    username ++ ":" ++ password = username' ++ ":" ++ password' := by
  have hencoded := String.ofList_injective ((String.append_right_inj "Basic ").mp h)
  have hcarries := Base64.carries_encode (credentials username' password')
  rw [← hencoded] at hcarries
  exact Utf8.bytes_injective ((Base64.carries_encode _).unique hcarries)

/-- Lists fall apart in one way only at their first separator. -/
theorem append_cons_injective {α : Type} [DecidableEq α] {x : α} {l l' r r' : List α} (h : x ∉ l)
    (h' : x ∉ l') (heq : l ++ x :: r = l' ++ x :: r') : l = l' ∧ r = r' := by
  have hlength : l.length = l'.length := by
    have hplace := congrArg (List.idxOf x) heq
    rwa [List.idxOf_append_of_notMem h, List.idxOf_append_of_notMem h', List.idxOf_cons_self,
      List.idxOf_cons_self] at hplace
  obtain ⟨hl, hr⟩ := List.append_inj heq hlength
  exact ⟨hl, List.tail_eq_of_cons_eq hr⟩

theorem parts_of_credentials {username password username' password' : String}
    (h : ':' ∉ username.toList) (h' : ':' ∉ username'.toList)
    (heq : username ++ ":" ++ password = username' ++ ":" ++ password') :
    username = username' ∧ password = password' := by
  have hlists := congrArg String.toList heq
  simp only [String.toList_append, List.append_assoc] at hlists
  obtain ⟨hname, hword⟩ := append_cons_injective h h' hlists
  exact ⟨String.toList_inj.mp hname, String.toList_inj.mp hword⟩

/-- Behind its first word the header is the padded Base64 of name, colon and password and of no
other bytes.  Names without a colon and their passwords are told by the header. -/
theorem basicAuthorization_readBack (username password : String) :
    (∃ text : String, basicAuthorization username password = "Basic " ++ text ∧
      (∀ bytes, Base64.Carries text.toList bytes ↔
        bytes = username.toUTF8.toList ++ colon :: password.toUTF8.toList) ∧
      Base64.decode text.toUTF8.toList =
        .ok (username.toUTF8.toList ++ colon :: password.toUTF8.toList)) ∧
    ∀ username' password', ':' ∉ username.toList → ':' ∉ username'.toList →
      (basicAuthorization username password = basicAuthorization username' password' ↔
        username = username' ∧ password = password') := by
  refine ⟨⟨String.ofList (Base64.encode (credentials username password)), rfl, ?_, ?_⟩, ?_⟩
  · intro bytes
    rw [String.toList_ofList, ← credentials_eq]
    constructor
    · intro h
      exact h.unique (Base64.carries_encode _)
    · rintro rfl
      exact Base64.carries_encode _
  · have hascii : ∀ c ∈ (String.ofList (Base64.encode (credentials username password))).toList,
        c.toNat < 128 := by
      intro c hc
      rw [String.toList_ofList] at hc
      exact Base64.toNat_lt_of_isSymbol (Base64.encode_isSymbol _ c hc)
    rw [Utf8.bytes_of_ascii hascii, String.toList_ofList, Base64.decode_encode, credentials_eq]
  · intro username' password' h h'
    constructor
    · intro heq
      exact parts_of_credentials h h' (credentials_of_basicAuthorization heq)
    · rintro ⟨rfl, rfl⟩
      rfl

theorem basicAuthorization_readBack_colons :
    ':' ∉ "jürgen".toList ∧ ':' ∉ "jürge".toList ∧
      basicAuthorization "jürgen" ":\n:" ≠ basicAuthorization "jürge" "n::\n:" := by
  have hname : ':' ∉ "jürgen".toList := by decide
  have hname' : ':' ∉ "jürge".toList := by decide
  refine ⟨hname, hname', fun heq => ?_⟩
  have hparts := ((basicAuthorization_readBack "jürgen" ":\n:").2 _ _ hname hname').mp heq
  exact absurd hparts.1 (by decide)

/-- With a colon in a name the header does not tell where the name ends. -/
example : basicAuthorization "a:b" "c" = basicAuthorization "a" "b:c" := rfl

end PlaneBridge.Delivery
