import DMProxy.Network.Framing
import DMProxy.Platforms.Stt

/-!
# Reading back a packet of douyu

`parse_stt` cuts a token at its first `@=`.  A key may end in `@` and a value may begin with
`=` or contain the mark itself, as long as the key does not.
-/

namespace DMProxy.Platforms

open DMProxy.Network
open DMProxy.Text

/-- The mark between a key and its value. -/
def Stt.mark : Bytes := ascii "@="

/-- Pairs that `parse_stt` can tell apart. -/
structure Plain (pairs : List (Bytes × Bytes)) : Prop where
  noNul : ∀ entry ∈ pairs, 0 ∉ entry.1 ∧ 0 ∉ entry.2
  noSeparator : ∀ entry ∈ pairs, 47 ∉ entry.1 ∧ 47 ∉ entry.2
  noMark : ∀ entry ∈ pairs, contains Stt.mark entry.1 = false

/-- The payload ends in NUL and is read as the map from each key to its first value. -/
structure Decodes (pairs : List (Bytes × Bytes)) (payload : Bytes) : Prop where
  terminated : payload.getLast? = some 0
  lookup : ∀ key, (parseStt payload).lookup key = pairs.lookup key

namespace Stt

/-- One pair as a token. -/
def token (entry : Bytes × Bytes) : Bytes :=
  entry.1 ++ mark ++ entry.2

theorem cut_cons {byte : UInt8} {rest : Bytes} (other : ¬mark <+: byte :: rest) :
    cut (byte :: rest) = (cut rest).map fun entry => (byte :: entry.1, entry.2) := by
  cases rest with
  | nil => rw [cut]; simp
  | cons next rest =>
      rw [cut]
      intro tail first second
      cases second
      exact other ⟨_, by rw [first]; rfl⟩

/-- A token is cut between its key and its value. -/
theorem cut_token (key value : Bytes) (noMark : contains mark key = false) :
    cut (key ++ mark ++ value) = some (key, value) := by
  induction key with
  | nil => rfl
  | cons byte key ih =>
      simp only [contains, Bool.or_eq_false_iff] at noMark
      rw [List.cons_append, List.cons_append, cut_cons, ih noMark.2]
      · rfl
      · intro starts
        -- The mark after the key begins with its first byte, not with its second.
        have two : mark = [64, 61] := rfl
        have absent := noMark.1
        cases key with
        | nil => simp [two] at starts
        | cons next key =>
            simp only [two, List.cons_append, List.cons_prefix_cons] at starts
            simp [two, starts.1, starts.2.1] at absent

theorem tokens_sttText {pairs : List (Bytes × Bytes)}
    (noSeparator : ∀ entry ∈ pairs, 47 ∉ entry.1 ∧ 47 ∉ entry.2) :
    tokens (sttText pairs) = pairs.map token := by
  induction pairs with
  | nil => rfl
  | cons entry pairs ih =>
      have here := noSeparator entry List.mem_cons_self
      have whole : sttText (entry :: pairs) = token entry ++ 47 :: sttText pairs := by
        rw [sttText, List.flatMap_cons, List.append_assoc]
        rfl
      have absent : 47 ∉ token entry := by
        have mark_eq : 47 ∉ mark := by decide
        simp [token, here, mark_eq]
      have full : (token entry).isEmpty = false := by
        simp [token, mark, ascii]
      have later := ih fun other member => noSeparator other (List.mem_cons_of_mem _ member)
      simp only [tokens] at later ⊢
      rw [whole, List.splitOn_append_cons_self_of_not_mem absent, List.filter_cons, full, later]
      rfl

theorem lookup_insert (stt : Stt) (entry : Bytes × Bytes) (key : Bytes) :
    (stt.insert entry).lookup key = (stt.lookup key).or ([entry].lookup key) := by
  simp only [insert]
  split
  next present =>
    rw [List.any_eq_true] at present
    rcases present with ⟨other, member, same⟩
    rw [List.lookup_singleton]
    split
    next asked =>
      have found : (stt.lookup key).isSome := by
        rw [List.lookup_isSome_iff]
        exact ⟨other, member, by rw [eq_of_beq asked, eq_of_beq same, beq_self_eq_true]⟩
      rw [Option.or_of_isSome found]
    next => rw [Option.or_none]
  next => exact List.lookup_append

/-- Inserting pairs keeps what is there, and the first of several values. -/
theorem lookup_foldl_insert (pairs : List (Bytes × Bytes)) (stt : Stt) (key : Bytes) :
    (pairs.foldl insert stt).lookup key = (stt.lookup key).or (pairs.lookup key) := by
  induction pairs generalizing stt with
  | nil => simp
  | cons entry pairs ih =>
      rw [List.foldl_cons, ih, lookup_insert, Option.or_assoc, ← List.lookup_append]
      rfl

end Stt

theorem Plain.noNul_sttText {pairs : List (Bytes × Bytes)} (plain : Plain pairs) :
    0 ∉ sttText pairs := by
  intro member
  rcases List.mem_flatMap.mp member with ⟨entry, listed, inside⟩
  have absent := plain.noNul entry listed
  have marks : (0 : UInt8) ∉ ascii "@=" ∧ (0 : UInt8) ∉ ascii "/" := by decide
  simp [absent, marks] at inside

/-- What `parse_stt` reads from the text of plain pairs. -/
theorem parseStt_sttText {pairs : List (Bytes × Bytes)} (plain : Plain pairs) :
    parseStt (sttText pairs ++ [0]) = pairs.foldl Stt.insert [] := by
  have cuts : (pairs.map Stt.token).filterMap Stt.cut = pairs := by
    rw [List.filterMap_map]
    have whole : ∀ entry ∈ pairs, (Stt.cut ∘ Stt.token) entry = some entry :=
      fun entry member => Stt.cut_token entry.1 entry.2 (plain.noMark entry member)
    exact (List.filterMap_congr whole).trans List.filterMap_some
  rw [parseStt, cString_append plain.noNul_sttText, Stt.tokens_sttText plain.noSeparator, cuts]

theorem decodes_sttText {pairs : List (Bytes × Bytes)} (plain : Plain pairs) :
    Decodes pairs (sttText pairs ++ [0]) := by
  refine ⟨by simp, fun key => ?_⟩
  rw [parseStt_sttText plain, Stt.lookup_foldl_insert]
  rfl

end DMProxy.Platforms
