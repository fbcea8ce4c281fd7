import Ctunnel.Crypto.KeyFile

/-!
# Key files are exact

A file that passes the checks is loaded exactly if it holds the prefix of its
format, the standard base64 text of a key of the right length and at most one
line end. So a stored key is loaded again, a key has one text, and no file is a
key file of both formats (`key_files_exact`).
-/

namespace Ctunnel

open Lib

/-! ## Line ends -/

/-- The line ends a key file may have. -/
def lineEnds : List Bytes := [[], [10], [13, 10]]

theorem dropLineEnd_append {text eol : Bytes}
    (h : ∀ c, text.getLast? = some c → c ≠ 10 ∧ c ≠ 13) (heol : eol ∈ lineEnds) :
    dropLineEnd (text ++ eol) = text := by
  have hnl : text.getLast? ≠ some 10 := fun hc => (h 10 hc).1 rfl
  have hcr : text.getLast? ≠ some 13 := fun hc => (h 13 hc).2 rfl
  simp only [lineEnds, List.mem_cons, List.not_mem_nil, or_false] at heol
  obtain rfl | rfl | rfl := heol
  · rw [List.append_nil, dropLineEnd, if_neg hnl]
  · rw [dropLineEnd, List.getLast?_concat, if_pos rfl, List.dropLast_concat, if_neg hcr]
  · rw [show text ++ [13, 10] = (text ++ [13]) ++ [10] by simp, dropLineEnd,
      List.getLast?_concat, if_pos rfl, List.dropLast_concat, List.getLast?_concat, if_pos rfl,
      List.dropLast_concat]

theorem dropLineEnd_cases (e : Bytes) : ∃ eol ∈ lineEnds, e = dropLineEnd e ++ eol := by
  have hlast : ∀ (l : Bytes) (c : UInt8), l.getLast? = some c → l = l.dropLast ++ [c] := by
    intro l c hc
    obtain ⟨ys, rfl⟩ := List.getLast?_eq_some_iff.mp hc
    rw [List.dropLast_concat]
  unfold dropLineEnd
  by_cases hnl : e.getLast? = some 10
  · rw [if_pos hnl]
    by_cases hcr : e.dropLast.getLast? = some 13
    · rw [if_pos hcr]
      refine ⟨[13, 10], by simp [lineEnds], ?_⟩
      have hone := hlast e 10 hnl
      have htwo := hlast e.dropLast 13 hcr
      calc e = e.dropLast ++ [10] := hone
        _ = (e.dropLast.dropLast ++ [13]) ++ [10] := by rw [← htwo]
        _ = e.dropLast.dropLast ++ [13, 10] := by simp
    · rw [if_neg hcr]
      exact ⟨[10], by simp [lineEnds], hlast e 10 hnl⟩
  · rw [if_neg hnl]
    exact ⟨[], by simp [lineEnds], by simp⟩

/-- No base64 text contains a line end. -/
theorem b64Groups_mem {key : Bytes} {c : UInt8} (h : c ∈ b64Groups key) : c ≠ 10 ∧ c ≠ 13 := by
  have hall : ∀ v < 64, b64Char v ≠ 10 ∧ b64Char v ≠ 13 := by decide +kernel
  have hchar : ∀ v, b64Char v ≠ 10 ∧ b64Char v ≠ 13 := by
    intro v
    rw [b64Char_mod]
    exact hall _ (Nat.mod_lt _ (by omega))
  have hpad : (61 : UInt8) ≠ 10 ∧ (61 : UInt8) ≠ 13 := by decide
  fun_induction b64Groups key with
  | case1 => exact absurd h (by simp)
  | case2 x value =>
      simp only [List.mem_cons, List.not_mem_nil, or_false] at h
      obtain rfl | rfl | rfl | rfl := h
      · exact hchar _
      · exact hchar _
      · exact hpad
      · exact hpad
  | case3 x y value =>
      simp only [List.mem_cons, List.not_mem_nil, or_false] at h
      obtain rfl | rfl | rfl | rfl := h
      · exact hchar _
      · exact hchar _
      · exact hchar _
      · exact hpad
  | case4 x y z rest value ih =>
      rw [List.mem_append] at h
      obtain h | h := h
      · simp only [List.mem_cons, List.not_mem_nil, or_false] at h
        obtain rfl | rfl | rfl | rfl := h <;> exact hchar _
      · exact ih h

/-- A text ends in a character of the alphabet or a padding character. -/
theorem dropLineEnd_text (keyPrefix : Bytes) {key eol : Bytes} (hkey : 0 < key.length)
    (heol : eol ∈ lineEnds) :
    dropLineEnd (keyPrefix ++ b64Groups key ++ eol) = keyPrefix ++ b64Groups key := by
  have hlength := b64Groups_length key
  have hne : b64Groups key ≠ [] := by
    intro hnil
    rw [hnil, List.length_nil] at hlength
    omega
  apply dropLineEnd_append _ heol
  intro c hc
  rw [List.getLast?_append_of_ne_nil _ hne] at hc
  exact b64Groups_mem (List.mem_of_getLast? hc)

/-! ## Loading -/

/-- `load_key` with a prefix and a length that fit its buffer. -/
theorem loadKey_iff {file : KeyFile} {keyPrefix : Bytes} {expected : Nat} {privateFile : Bool}
    {key : Bytes} (hpos : 0 < expected)
    (hfits : keyPrefix.length + (expected + 2) / 3 * 4 + 2 < 511) :
    loadKey file keyPrefix expected privateFile = some key ↔
      file.passes privateFile = true ∧ file.readable = true ∧ key.length = expected ∧
        ∃ eol ∈ lineEnds, file.content = keyPrefix ++ b64Groups key ++ eol := by
  unfold loadKey
  constructor
  · intro h
    split at h
    · rename_i hopen
      simp only [Bool.and_eq_true] at hopen
      dsimp only at h
      split at h
      · exact absurd h (by simp)
      · rename_i hread
        rw [not_or, List.length_take] at hread
        have hshort : file.content.length ≤ 511 := by omega
        rw [List.take_of_length_le hshort] at h
        split at h
        · rename_i hprefix
          obtain ⟨htext, hlen⟩ := (b64Decode_iff hpos _ _).mp h
          obtain ⟨eol, heol, hcontent⟩ := dropLineEnd_cases file.content
          refine ⟨hopen.1.2, ?_, hlen, eol, heol, ?_⟩
          · simp [KeyFile.readable, hopen.1.1, hopen.2, hread.1]
          · rw [← htext, ← hprefix.2, List.length_take, Nat.min_eq_left (by omega),
              List.take_append_drop]
            exact hcontent
        · exact absurd h (by simp)
    · exact absurd h (by simp)
  · rintro ⟨hpasses, hreadable, hlen, eol, heol, hcontent⟩
    simp only [KeyFile.readable, Bool.and_eq_true, Bool.not_eq_true'] at hreadable
    have htext := b64Groups_length key
    have heolLen : eol.length ≤ 2 := by
      simp only [lineEnds, List.mem_cons, List.not_mem_nil, or_false] at heol
      obtain rfl | rfl | rfl := heol <;> simp
    have hshort : file.content.length < 511 := by
      rw [hcontent, List.length_append, List.length_append]
      omega
    have hdrop : dropLineEnd file.content = keyPrefix ++ b64Groups key := by
      rw [hcontent]
      exact dropLineEnd_text keyPrefix (by omega) heol
    rw [if_pos (by simp [hreadable.1.1, hreadable.1.2, hpasses])]
    dsimp only
    rw [List.take_of_length_le (by omega), if_neg (by simp [hreadable.2]; omega), hdrop]
    rw [if_pos ⟨by rw [List.length_append]; omega, List.take_left⟩, List.drop_left]
    exact (b64Decode_iff hpos _ _).mpr ⟨rfl, hlen⟩

namespace KeyFormat

theorem load_iff (t : KeyFormat) (file : KeyFile) (key : Bytes) :
    t.load file = some key ↔
      file.passes t.privateFile = true ∧ file.readable = true ∧ key.length = t.keyLength ∧
        ∃ eol ∈ lineEnds, file.content = t.keyPrefix ++ b64Groups key ++ eol := by
  cases t with
  | publicKey => exact loadKey_iff (by decide) (by decide +kernel)
  | privateKey => exact loadKey_iff (by decide) (by decide +kernel)

/-- What `write_key` stores for a key of the format. -/
theorem store_eq (t : KeyFormat) (io : KeyFileIo) {key : Bytes} (hlen : key.length = t.keyLength) :
    t.store io key =
      if io.created && io.written then
        some ((if t.privateFile then 0o600 else 0o644) &&& ~~~io.umask,
          t.keyPrefix ++ b64Groups key ++ [10])
      else none := by
  have hprefix : t.keyPrefix.length ≤ 33 := by
    cases t <;> decide +kernel
  have hkey : t.keyLength ≤ 64 := by
    cases t <;> decide
  rw [store, writeKey, if_neg (by omega), b64Encode, if_neg (by omega)]
  rfl

/-- The mode `write_key` gives a file passes `load_key`'s check. -/
theorem store_passes (t : KeyFormat) (umask : UInt32) {file : KeyFile}
    (hregular : file.regular = true)
    (hmode : file.mode = (if t.privateFile then 0o600 else 0o644) &&& ~~~umask) :
    file.passes t.privateFile = true := by
  have hmask : (0o600 &&& ~~~umask) &&& (0o77 : UInt32) = 0 := by
    rw [UInt32.and_comm 0o600, UInt32.and_assoc, show (0o600 : UInt32) &&& 0o77 = 0 from by decide,
      UInt32.and_zero]
  cases t with
  | publicKey => simp [KeyFile.passes, privateFile, hregular]
  | privateKey =>
      rw [show privateKey.privateFile = true from rfl, if_pos rfl] at hmode
      simp [KeyFile.passes, privateFile, hregular, hmode, hmask]

/-- The two prefixes part before either ends. -/
theorem keyPrefix_inj {t t' : KeyFormat} {rest rest' : Bytes}
    (h : t.keyPrefix ++ rest = t'.keyPrefix ++ rest') : t = t' := by
  have hchar : (t.keyPrefix ++ rest)[23]? = (t'.keyPrefix ++ rest')[23]? := by rw [h]
  have hlen : ∀ s : KeyFormat, 23 < s.keyPrefix.length := by
    intro s
    cases s <;> decide +kernel
  rw [List.getElem?_append_left (hlen t), List.getElem?_append_left (hlen t')] at hchar
  revert hchar
  cases t <;> cases t' <;> decide +kernel

end KeyFormat

/-- A file is loaded exactly if it passes the checks and holds the prefix, the base64 text of a
key of the right length and at most one line end. What `write_key` stores is loaded again; the
text of a key is the same in every file that holds it; and no content is that of a public and
of a private key file. -/
theorem key_files_exact (t : KeyFormat) :
    (∀ file key, t.load file = some key ↔
      file.passes t.privateFile = true ∧ file.readable = true ∧ key.length = t.keyLength ∧
        ∃ eol ∈ lineEnds, file.content = t.keyPrefix ++ b64Groups key ++ eol) ∧
    (∀ io key, key.length = t.keyLength →
      ((t.store io key).isSome = (io.created && io.written)) ∧
      ∀ mode content, t.store io key = some (mode, content) → ∀ file : KeyFile,
        file.mode = mode → file.content = content → file.regular = true →
          file.readable = true → t.load file = some key) ∧
    (∀ file file' key, t.load file = some key → t.load file' = some key →
      (dropLineEnd file.content).drop t.keyPrefix.length =
        (dropLineEnd file'.content).drop t.keyPrefix.length) ∧
    ∀ t' file file' key key', file.content = file'.content → t.load file = some key →
      t'.load file' = some key' → t = t' := by
  have hpos : 0 < t.keyLength := by
    cases t <;> decide
  have htext : ∀ file key, t.load file = some key →
      (dropLineEnd file.content).drop t.keyPrefix.length = b64Groups key := by
    intro file key hload
    obtain ⟨-, -, hlen, eol, heol, hcontent⟩ := (t.load_iff file key).mp hload
    rw [hcontent, dropLineEnd_text t.keyPrefix (by omega) heol, List.drop_left]
  refine ⟨t.load_iff, ?_, ?_, ?_⟩
  · intro io key hlen
    rw [t.store_eq io hlen]
    constructor
    · cases io.created && io.written <;> rfl
    · intro mode content hstore file hmode hcontent hregular hreadable
      split at hstore
      · injection hstore with hstore
        rw [Prod.mk.injEq] at hstore
        refine (t.load_iff file key).mpr ⟨?_, hreadable, hlen, [10], by simp [lineEnds], ?_⟩
        · exact t.store_passes io.umask hregular (hmode.trans hstore.1.symm)
        · exact hcontent.trans hstore.2.symm
      · exact absurd hstore (by simp)
  · intro file file' key hload hload'
    rw [htext file key hload, htext file' key hload']
  · intro t' file file' key key' hsame hload hload'
    obtain ⟨-, -, -, eol, -, hcontent⟩ := (t.load_iff file key).mp hload
    obtain ⟨-, -, -, eol', -, hcontent'⟩ := (t'.load_iff file' key').mp hload'
    rw [hcontent, hcontent', List.append_assoc, List.append_assoc] at hsame
    exact KeyFormat.keyPrefix_inj hsame

end Ctunnel
