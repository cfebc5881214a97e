import HopsFormal.Pairing.MatchCode
import Mathlib.Data.List.Basic
import Mathlib.Data.Sym.Sym2
import Mathlib.Data.Vector.Basic

/-!
# What a ceremony binds

The session is a fixed number of bytes and a separator that no fingerprint holds ends
each of the two, so what is absorbed gives back the domain, the session, the pair and
what comes after.  A hash that keeps two messages apart keeps apart what they bind.
-/

namespace HopsFormal.Pairing.MatchCode

/-! ## The bytes of a text -/

theorem loop_toList (bytes : ByteArray) (index : Nat) (before : List UInt8) :
    ByteArray.toList.loop bytes index before = before.reverse ++ bytes.data.toList.drop index := by
  induction remaining : bytes.size - index generalizing index before with
  | zero =>
    have past : bytes.data.size ≤ index := Nat.sub_eq_zero_iff_le.mp remaining
    have stops : ¬ index < bytes.size := Nat.not_lt.mpr past
    rw [ByteArray.toList.loop, if_neg stops, List.drop_eq_nil_of_le past, List.append_nil]
  | succ n ih =>
    have within : index < bytes.size := by omega
    have there : index < bytes.data.toList.length := within
    rw [ByteArray.toList.loop, if_pos within, ih (index + 1) _ (by omega),
      List.drop_eq_getElem_cons there, List.reverse_cons, List.append_assoc,
      List.singleton_append]
    congr 2
    exact getElem!_pos bytes.data index within

theorem utf8_eq (text : String) : utf8 text = text.toByteArray.data.toList := by
  rw [utf8, ByteArray.toList, loop_toList]
  rfl

theorem utf8_injective : Function.Injective utf8 := by
  intro first second same
  rw [utf8_eq, utf8_eq] at same
  exact String.toByteArray_inj.mp (ByteArray.ext (Array.toList_inj.mp same))

/-- A fingerprint holds no byte that separates it from what follows. -/
def Separable (fingerprint : String) : Prop := 0 ∉ utf8 fingerprint

theorem separable_iff {fp : String} :
    Separable fp ↔ 0 ∉ fp.toByteArray.data.toList := by
  rw [Separable, utf8_eq]

/-! ## What is absorbed -/

/-- The session of a ceremony: keying material of a fixed length. -/
def exporterLen : Nat := 32

abbrev Session := Vector UInt8 exporterLen

/-- The two questions that are hashed. -/
inductive Domain where
  | commit
  | code

def Domain.bytes : Domain → Bytes
  | .commit => commitDomain
  | .code => codeDomain

theorem ordered_cases (a b : String) : ordered a b = (a, b) ∨ ordered a b = (b, a) := by
  unfold ordered
  split
  · exact .inl rfl
  · exact .inr rfl

theorem ordered_eq_iff {a b c d : String} : ordered a b = ordered c d ↔ s(a, b) = s(c, d) := by
  constructor
  · intro same
    rcases ordered_cases a b with first | first <;> rcases ordered_cases c d with second | second
    all_goals
      rw [first, second] at same
      obtain ⟨rfl, rfl⟩ := Prod.mk.inj same
      simp [Sym2.eq_swap]
  · intro same
    rcases Sym2.eq_iff.mp same with ⟨rfl, rfl⟩ | ⟨rfl, rfl⟩
    · rfl
    · exact ordered_comm a b

theorem domains_apart (first second : Bytes) :
    Domain.commit.bytes ++ first ≠ Domain.code.bytes ++ second := by
  have commits : commitDomain[11]? = some 99 := by
    rw [commitDomain, utf8_eq]
    decide
  have codes : codeDomain[11]? = some 118 := by
    rw [codeDomain, utf8_eq]
    decide
  have within : ∀ {bytes : Bytes} {byte : UInt8}, bytes[11]? = some byte →
      ∀ rest, (bytes ++ rest)[11]? = some byte := by
    intro bytes byte here rest
    rw [List.getElem?_append_left (List.getElem?_eq_some_iff.mp here).1, here]
  intro same
  have bytes : some (99 : UInt8) = some 118 := by
    rw [← within commits first, ← within codes second]
    exact congrArg (·[11]?) same
  exact absurd bytes (by decide)

theorem parts_inj {stop : UInt8} {first second rest rest' : Bytes} (free : stop ∉ first)
    (free' : stop ∉ second) (same : first ++ ([stop] ++ rest) = second ++ ([stop] ++ rest')) :
    first = second ∧ rest = rest' := by
  induction first generalizing second with
  | nil =>
    cases second with
    | nil => exact ⟨rfl, List.tail_eq_of_cons_eq same⟩
    | cons byte more =>
      have head : stop = byte := List.head_eq_of_cons_eq same
      exact absurd (List.mem_cons.mpr (.inl head)) free'
  | cons byte more ih =>
    cases second with
    | nil =>
      have head : byte = stop := List.head_eq_of_cons_eq same
      exact absurd (List.mem_cons.mpr (.inl head.symm)) free
    | cons byte' more' =>
      obtain ⟨head, tail⟩ := List.cons.inj same
      obtain ⟨mores, rests⟩ := ih (fun held => free (List.mem_cons_of_mem _ held))
        (fun held => free' (List.mem_cons_of_mem _ held)) tail
      exact ⟨by rw [head, mores], rests⟩

theorem absorbed_inj (domain other : Domain) {session session' : Session} {a b c d : String}
    {rest rest' : Bytes} (first : Separable a) (second : Separable b) (third : Separable c)
    (fourth : Separable d)
    (same : domain.bytes ++ absorbContext session.toList a b ++ rest =
      other.bytes ++ absorbContext session'.toList c d ++ rest') :
    domain = other ∧ session = session' ∧ s(a, b) = s(c, d) ∧ rest = rest' := by
  have domains : domain = other := by
    cases domain <;> cases other
    · rfl
    · rw [List.append_assoc, List.append_assoc] at same
      exact absurd same (domains_apart _ _)
    · rw [List.append_assoc, List.append_assoc] at same
      exact absurd same.symm (domains_apart _ _)
    · rfl
  subst domains
  have free : ∀ {x y : String}, Separable x → Separable y →
      0 ∉ utf8 (ordered x y).1 ∧ 0 ∉ utf8 (ordered x y).2 := by
    intro x y left right
    rcases ordered_cases x y with isOrdered | isOrdered
    · rw [isOrdered]
      exact ⟨left, right⟩
    · rw [isOrdered]
      exact ⟨right, left⟩
  obtain ⟨lowFree, highFree⟩ := free first second
  obtain ⟨lowFree', highFree'⟩ := free third fourth
  rw [List.append_assoc, List.append_assoc, List.append_cancel_left_eq, absorbContext,
    absorbContext] at same
  simp only [List.append_assoc] at same
  obtain ⟨sessions, tail⟩ := List.append_inj same (by simp)
  obtain ⟨low, tail⟩ := parts_inj lowFree lowFree' tail
  obtain ⟨high, same⟩ := parts_inj highFree highFree' tail
  refine ⟨rfl, Vector.toList_inj.mp sessions, ordered_eq_iff.mp ?_, same⟩
  exact Prod.ext (utf8_injective low) (utf8_injective high)

/-! ## What a commitment opens to -/

theorem fold_or_eq_zero (bytes : Bytes) (found : UInt8) :
    bytes.foldl (· ||| ·) found = 0 ↔ found = 0 ∧ ∀ byte ∈ bytes, byte = 0 := by
  induction bytes generalizing found with
  | nil => simp
  | cons byte rest ih =>
    rw [List.foldl_cons, ih, UInt8.or_eq_zero_iff, List.forall_mem_cons, and_assoc]

theorem zip_xor_eq_zero {received expected : Bytes} (lengths : received.length = expected.length) :
    (∀ byte ∈ List.zipWith (· ^^^ ·) received expected, byte = 0) ↔ received = expected := by
  induction received generalizing expected with
  | nil =>
    have none_ : expected = [] := List.length_eq_zero_iff.mp lengths.symm
    simp [none_]
  | cons byte rest ih =>
    cases expected with
    | nil => cases lengths
    | cons byte' rest' =>
      have rests : rest.length = rest'.length := Nat.succ.inj lengths
      rw [List.zipWith_cons_cons, List.forall_mem_cons, UInt8.xor_eq_zero_iff, ih rests,
        List.cons.injEq]

/-- The check accepts the commitment that is worked out, and no other bytes. -/
theorem opens_iff [Sha256] (received exporter : Bytes) (a b : String) (nonceR : Bytes) :
    opens received exporter a b nonceR = true ↔ received = commitment exporter a b nonceR := by
  unfold opens
  rw [Bool.and_eq_true, beq_iff_eq, beq_iff_eq, fold_or_eq_zero]
  constructor
  · rintro ⟨lengths, -, zeros⟩
    exact (zip_xor_eq_zero lengths).mp zeros
  · intro same
    have lengths := congrArg List.length same
    exact ⟨lengths, rfl, (zip_xor_eq_zero lengths).mpr same⟩

theorem commitment_comm [Sha256] (exporter : Bytes) (a b : String) (nonceR : Bytes) :
    commitment exporter a b nonceR = commitment exporter b a nonceR := by
  rw [commitment, commitment, absorbContext_comm]

/-- What the responder hashes to commit itself. -/
def committed (session : Session) (a b : String) (nonceR : Bytes) : Bytes :=
  commitDomain ++ absorbContext session.toList a b ++ nonceR

theorem opens_committed [Sha256] {session session' : Session} {a b c d : String}
    {nonceR nonceR' : Bytes} (first : Separable a) (second : Separable b) (third : Separable c)
    (fourth : Separable d)
    (apart : Sha256.digest (committed session a b nonceR) =
        Sha256.digest (committed session' c d nonceR') →
      committed session a b nonceR = committed session' c d nonceR') :
    opens (commitment session.toList a b nonceR) session'.toList c d nonceR' = true ↔
      session = session' ∧ s(a, b) = s(c, d) ∧ nonceR = nonceR' := by
  rw [opens_iff]
  constructor
  · intro digests
    have same := apart digests
    exact (absorbed_inj .commit .commit first second third fourth same).2
  · rintro ⟨rfl, pairs, rfl⟩
    rw [commitment, commitment, absorbContext, absorbContext, ordered_eq_iff.mpr pairs]

/-- What is absorbed gives back the domain, the session and the unordered pair; a
commitment is opened by the nonce, the session and the pair it was made with and by
nothing else; both ends check and show the same; and what they show is six digits. -/
theorem ceremony_binding [Sha256] {session session' : Session} {a b c d : String}
    (first : Separable a) (second : Separable b) (third : Separable c) (fourth : Separable d) :
    (∀ (domain other : Domain) (rest rest' : Bytes),
      domain.bytes ++ absorbContext session.toList a b ++ rest =
          other.bytes ++ absorbContext session'.toList c d ++ rest' →
        domain = other ∧ session = session' ∧ s(a, b) = s(c, d) ∧ rest = rest') ∧
    (∀ nonceR nonceR' : Bytes,
      (Sha256.digest (committed session a b nonceR) =
          Sha256.digest (committed session' c d nonceR') →
        committed session a b nonceR = committed session' c d nonceR') →
      (opens (commitment session.toList a b nonceR) session'.toList c d nonceR' = true ↔
        session = session' ∧ s(a, b) = s(c, d) ∧ nonceR = nonceR')) ∧
    (∀ received nonceI nonceR : Bytes,
      commitment session.toList a b nonceR = commitment session.toList b a nonceR ∧
      opens received session.toList a b nonceR = opens received session.toList b a nonceR ∧
      opens (commitment session.toList a b nonceR) session.toList b a nonceR = true ∧
      code session.toList a b nonceI nonceR = code session.toList b a nonceI nonceR ∧
      (code session.toList a b nonceI nonceR).toList.length = 6 ∧
      ∀ c ∈ (code session.toList a b nonceI nonceR).toList, c.isDigit = true) := by
  refine ⟨fun domain other rest rest' same =>
      absorbed_inj domain other first second third fourth same,
    fun nonceR nonceR' apart => opens_committed first second third fourth apart,
    fun received nonceI nonceR => ⟨commitment_comm _ a b nonceR, ?_,
      opens_commitment _ a b nonceR, code_comm _ a b nonceI nonceR,
      code_sixDigits _ a b nonceI nonceR⟩⟩
  rw [opens, opens, commitment_comm]

def sevens : Session := Vector.replicate exporterLen 7

/-- Two fingerprints cut at another place absorb other bytes. -/
theorem ceremony_binding_recut :
    absorbContext sevens.toList "aa:bb" "cc" ≠ absorbContext sevens.toList "aa" "bb:cc" := by
  intro same
  have bound := @ceremony_binding standardSha256 sevens sevens "aa:bb" "cc" "aa" "bb:cc"
    (separable_iff.mpr (by decide)) (separable_iff.mpr (by decide))
    (separable_iff.mpr (by decide)) (separable_iff.mpr (by decide))
  have pairs := (bound.1 .commit .commit [] [] (by rw [same])).2.2.1
  exact absurd pairs (by decide)

end HopsFormal.Pairing.MatchCode
