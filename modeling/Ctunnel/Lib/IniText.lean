import Ctunnel.Lib.Strtol
import Mathlib.Data.List.DropRight

/-!
# Section files read line by line

A reader of files with `[section]` headers and `key = value` lines, as programs
write it with `fgets` into a fixed buffer: what the successive calls return, the
text of a line, what kind of line it is, and a loop that enters sections and sets
keys until the first error.

The other side is what the file says: its lines (`fileLines`), and the sections they
form (`sections`). `IniReader.run_ok_iff` connects them: the loop succeeds exactly if
every line can be read and the sections, taken one after the other, can be loaded.
-/

namespace Ctunnel.Lib

/-! ## Text -/

/-- `trim`. -/
def trim (s : Bytes) : Bytes := (s.dropWhile isspace).rdropWhile isspace

/-- What `strlen` sees of a buffer. -/
def cutNul (s : Bytes) : Bytes := s.takeWhile fun c => c != 0

/-- The text before the first `c` and the text behind it. -/
def splitAtByte (c : UInt8) (s : Bytes) : Option (Bytes × Bytes) :=
  if c ∈ s then some (s.takeWhile fun d => d != c, (s.dropWhile fun d => d != c).tail) else none

/-- The kinds of lines. -/
inductive TextLine
  | blank
  | header (name : Bytes)
  /-- A header without a closing bracket, or with something behind it. -/
  | badHeader
  | pair (k v : Bytes)
  /-- No `=` in it. -/
  | other
  deriving DecidableEq

/-- A line without the white space around it. -/
def parseLine (p : Bytes) : TextLine :=
  match p with
  | [] => .blank
  | c :: t =>
      if c = 35 ∨ c = 59 then .blank
      else if c = 91 then
        match splitAtByte 93 t with
        | some (name, []) => .header name
        | _ => .badHeader
      else
        match splitAtByte 61 p with
        | some (k, v) => .pair (trim k) (trim v)
        | none => .other

/-! ## Lines -/

/-- A buffer that `fgets` has filled, and `feof` after the call. -/
structure FileLine where
  buffer : Bytes
  eof : Bool
  deriving DecidableEq

/-- The successive `fgets` calls on a file, with a buffer of `n` bytes; `line` is what the
call under way has read. -/
def fgetsAll (n : Nat) : (line file : Bytes) → List FileLine
  | [], [] => []
  | line, [] => [⟨line, true⟩]
  | line, c :: file =>
      if c = 10 ∨ line.length + 2 = n then ⟨line ++ [c], false⟩ :: fgetsAll n [] file
      else fgetsAll n (line ++ [c]) file

/-- The text of a line, unless it is longer than the buffer. -/
def lineText (l : FileLine) : Option Bytes :=
  if 10 ∉ cutNul l.buffer ∧ l.eof = false then none else some (trim (cutNul l.buffer))

/-- The lines of a file, without their line ends. -/
def fileLines : (line file : Bytes) → List Bytes
  | [], [] => []
  | line, [] => [line]
  | line, c :: file => if c = 10 then line :: fileLines [] file else fileLines (line ++ [c]) file

/-- A file of these lines. -/
def joinLines (ls : List Bytes) : Bytes := ls.flatMap fun l => l ++ [10]

/-- What a line says. -/
def readLine (l : Bytes) : TextLine := parseLine (trim (cutNul l))

/-! ## Sections -/

/-- The keys of a section with their values. -/
abbrev Pairs := List (Bytes × Bytes)

def TextLine.isHeader : TextLine → Bool
  | .header _ => true
  | _ => false

def TextLine.toPair : TextLine → Option (Bytes × Bytes)
  | .pair k v => some (k, v)
  | _ => none

/-- The pairs up to the next header. -/
def bodyOf (ls : List TextLine) : Pairs :=
  (ls.takeWhile fun l => !l.isHeader).filterMap TextLine.toPair

/-- The sections: what stands between one header and the next. -/
def sections : List TextLine → List (Bytes × Pairs)
  | [] => []
  | .header name :: ls => (name, bodyOf ls) :: sections ls
  | _ :: ls => sections ls

/-- What a file says. -/
def fileText (file : Bytes) : List TextLine := (fileLines [] file).map readLine

/-- The sections of a file. -/
def fileSections (file : Bytes) : List (Bytes × Pairs) := sections (fileText file)

/-! ## A reader -/

/-- A program that reads such a file into `σ`. -/
structure IniReader (σ ε : Type) where
  enter : Bytes → σ → Except ε σ
  set : Bytes → Bytes → σ → Except ε σ
  tooLong : ε
  badHeader : ε
  malformed : ε

namespace IniReader

variable {σ ε : Type} (r : IniReader σ ε)

/-- One line of text. -/
def line (s : σ) : TextLine → Except ε σ
  | .blank => .ok s
  | .header name => r.enter name s
  | .badHeader => .error r.badHeader
  | .pair k v => r.set k v s
  | .other => .error r.malformed

/-- One turn of the loop. -/
def step (s : σ) (l : FileLine) : Except ε σ :=
  match lineText l with
  | none => .error r.tooLong
  | some p => r.line s (parseLine p)

/-- The loop, after `ln` lines; an error comes with the number of its line. -/
def run : (ln : Nat) → σ → List FileLine → Except (Nat × ε) σ
  | _, s, [] => .ok s
  | ln, s, l :: ls =>
      match r.step s l with
      | .ok s' => run (ln + 1) s' ls
      | .error e => .error (ln + 1, e)

/-- The pairs of a section. -/
def body (kvs : Pairs) (s : σ) : Except ε σ := kvs.foldlM (fun s kv => r.set kv.1 kv.2 s) s

/-- A whole section. -/
def load (s : σ) (sec : Bytes × Pairs) : Except ε σ := do
  let s ← r.enter sec.1 s
  r.body sec.2 s

/-- Sections in a row. -/
def loadAll (secs : List (Bytes × Pairs)) (s : σ) : Except ε σ := secs.foldlM r.load s

end IniReader

/-! ## The loop succeeds on the text of its lines -/

theorem except_bind_ok {ε α β : Type} {x : Except ε α} {f : α → Except ε β} {b : β} :
    (x >>= f) = .ok b ↔ ∃ a, x = .ok a ∧ f a = .ok b := by
  cases x with
  | error e =>
      constructor
      · intro h
        cases h
      · rintro ⟨a, h, -⟩
        cases h
  | ok a =>
      constructor
      · exact fun h => ⟨a, rfl, h⟩
      · rintro ⟨a', h, hf⟩
        cases h
        exact hf

theorem foldlM_cons_ok {ε α σ : Type} {f : σ → α → Except ε σ} {a : α} {as : List α} {s s' : σ} :
    (a :: as).foldlM f s = .ok s' ↔ ∃ m, f s a = .ok m ∧ as.foldlM f m = .ok s' := by
  rw [List.foldlM_cons]
  exact except_bind_ok

namespace IniReader

variable {σ ε : Type} {r : IniReader σ ε}

theorem run_ok {ln : Nat} {s s' : σ} {ls : List FileLine} :
    r.run ln s ls = .ok s' ↔
      ∃ ps, ls.mapM lineText = some ps ∧ (ps.map parseLine).foldlM r.line s = .ok s' := by
  induction ls generalizing ln s with
  | nil =>
      constructor
      · exact fun h => ⟨[], rfl, Except.ok.inj h ▸ rfl⟩
      · rintro ⟨ps, hps, h⟩
        cases hps
        exact Except.ok.inj h ▸ rfl
  | cons l ls ih =>
      simp only [run, step, List.mapM_cons]
      cases hl : lineText l with
      | none =>
          constructor
          · intro h
            cases h
          · rintro ⟨ps, hps, -⟩
            cases hps
      | some p =>
          simp only
          constructor
          · intro h
            cases hm : r.line s (parseLine p) with
            | error e => simp [hm] at h
            | ok m =>
                rw [hm] at h
                obtain ⟨ps, hps, hend⟩ := ih.mp h
                refine ⟨p :: ps, by simp [hps], ?_⟩
                exact foldlM_cons_ok.mpr ⟨m, hm, hend⟩
          · rintro ⟨ps, hps, hend⟩
            simp only [Option.pure_def, Option.bind_eq_bind, Option.bind_some,
              Option.bind_eq_some_iff] at hps
            obtain ⟨ps', hps', heq⟩ := hps
            obtain rfl := Option.some.inj heq
            obtain ⟨m, hm, hend⟩ := foldlM_cons_ok.mp hend
            rw [hm]
            exact ih.mpr ⟨ps', hps', hend⟩

/-- No line is an error in itself. -/
def WellFormed (ls : List TextLine) : Prop := ∀ l ∈ ls, l ≠ .badHeader ∧ l ≠ .other

/-- Loading the lines is finishing the section at hand and loading those that follow. -/
theorem lines_ok {ls : List TextLine} {s s' : σ} :
    ls.foldlM r.line s = .ok s' ↔ WellFormed ls ∧
      ∃ m, r.body (bodyOf ls) s = .ok m ∧ r.loadAll (sections ls) m = .ok s' := by
  induction ls generalizing s with
  | nil =>
      constructor
      · exact fun h => ⟨fun l hl => by simp at hl, s, rfl, h⟩
      · rintro ⟨-, m, hm, h⟩
        cases hm
        exact h
  | cons l ls ih =>
      rw [foldlM_cons_ok]
      have hwell : WellFormed (l :: ls) ↔ (l ≠ .badHeader ∧ l ≠ .other) ∧ WellFormed ls :=
        List.forall_mem_cons
      rw [hwell]
      cases l with
      | blank =>
          constructor
          · rintro ⟨m, hm, h⟩
            cases hm
            obtain ⟨hls, rest⟩ := ih.mp h
            exact ⟨⟨⟨nofun, nofun⟩, hls⟩, rest⟩
          · rintro ⟨⟨-, hls⟩, rest⟩
            exact ⟨s, rfl, ih.mpr ⟨hls, rest⟩⟩
      | header name =>
          constructor
          · rintro ⟨m, hm, h⟩
            obtain ⟨hls, m', hbody, hrest⟩ := ih.mp h
            refine ⟨⟨⟨nofun, nofun⟩, hls⟩, s, rfl, ?_⟩
            exact foldlM_cons_ok.mpr ⟨m', except_bind_ok.mpr ⟨m, hm, hbody⟩, hrest⟩
          · rintro ⟨⟨-, hls⟩, m, hm, hrest⟩
            cases hm
            obtain ⟨m', hload, hrest⟩ := foldlM_cons_ok.mp hrest
            obtain ⟨m, hm, hbody⟩ := except_bind_ok.mp hload
            exact ⟨m, hm, ih.mpr ⟨hls, m', hbody, hrest⟩⟩
      | badHeader =>
          constructor
          · rintro ⟨m, hm, -⟩
            cases hm
          · rintro ⟨⟨hbad, -⟩, -⟩
            exact absurd rfl hbad.1
      | pair k v =>
          constructor
          · rintro ⟨m, hm, h⟩
            obtain ⟨hls, m', hbody, hrest⟩ := ih.mp h
            exact ⟨⟨⟨nofun, nofun⟩, hls⟩, m', foldlM_cons_ok.mpr ⟨m, hm, hbody⟩, hrest⟩
          · rintro ⟨⟨-, hls⟩, m', hbody, hrest⟩
            obtain ⟨m, hm, hbody⟩ := foldlM_cons_ok.mp hbody
            exact ⟨m, hm, ih.mpr ⟨hls, m', hbody, hrest⟩⟩
      | other =>
          constructor
          · rintro ⟨m, hm, -⟩
            cases hm
          · rintro ⟨⟨hbad, -⟩, -⟩
            exact absurd rfl hbad.2

end IniReader

/-! ## Calls of `fgets` and lines of the file -/

theorem cutNul_of_noNul {s : Bytes} (h : 0 ∉ s) : cutNul s = s := by
  unfold cutNul
  rw [List.takeWhile_eq_self_iff]
  intro c hc
  have hne : c ≠ 0 := fun heq => h (heq ▸ hc)
  simpa using hne

theorem cutNul_append {l : Bytes} (h : 0 ∈ l) (r : Bytes) : cutNul (l ++ r) = cutNul l := by
  induction l with
  | nil => cases h
  | cons c l ih =>
      simp only [cutNul, List.cons_append, List.takeWhile_cons]
      split
      · rename_i hc
        have hl : 0 ∈ l := by
          rcases List.mem_cons.mp h with heq | hl
          · rw [← heq] at hc
            exact absurd hc (by decide)
          · exact hl
        exact congrArg (List.cons c) (ih hl)
      · rfl

/-- A line is seen to its end exactly if no NUL stands before it. -/
theorem newline_mem_cutNul {l : Bytes} (hl : 10 ∉ l) : 10 ∈ cutNul (l ++ [10]) ↔ 0 ∉ l := by
  constructor
  · intro hmem hnul
    rw [cutNul_append hnul] at hmem
    exact hl ((List.takeWhile_sublist _).subset hmem)
  · intro hnul
    rw [cutNul_of_noNul]
    · exact List.mem_append_right l List.mem_cons_self
    · simpa using hnul

theorem trim_newline (s : Bytes) : trim (s ++ [10]) = trim s := by
  unfold trim
  rw [List.dropWhile_append]
  split
  · rename_i hempty
    rw [List.isEmpty_iff.mp hempty]
    rfl
  · rw [List.rdropWhile_concat_pos _ _ _ (by decide)]

/-- The text of a terminated line. -/
theorem lineText_terminated {l : Bytes} (hl : 10 ∉ l) :
    lineText ⟨l ++ [10], false⟩ = if 0 ∈ l then none else some (trim (cutNul l)) := by
  have hseen := newline_mem_cutNul hl
  unfold lineText
  by_cases hnul : 0 ∈ l
  · rw [if_pos ⟨fun hmem => hseen.mp hmem hnul, rfl⟩, if_pos hnul]
  · have hend : 0 ∉ l ++ [10] := by simpa using hnul
    rw [if_neg fun h => h.1 (hseen.mpr hnul), if_neg hnul, cutNul_of_noNul hend,
      cutNul_of_noNul hnul, trim_newline]

/-- If all lines can be read, their texts are those of the lines of the file, and no line
is longer than the buffer. -/
theorem fgets_texts {n : Nat} {line file : Bytes} {ps : List Bytes} (hline : 10 ∉ line)
    (hlen : line.length + 2 ≤ n) (h : (fgetsAll n line file).mapM lineText = some ps) :
    ps = (fileLines line file).map (fun l => trim (cutNul l)) ∧
      ∀ l ∈ fileLines line file, l.length + 2 ≤ n := by
  induction file generalizing line ps with
  | nil =>
      cases line with
      | nil =>
          obtain rfl := Option.some.inj h
          exact ⟨rfl, fun l hl => by simp [fileLines] at hl⟩
      | cons c t =>
          simp only [fgetsAll, List.mapM_cons, lineText, List.mapM_nil] at h
          simp only [Bool.true_eq_false, and_false, if_false] at h
          obtain rfl := Option.some.inj h
          refine ⟨rfl, fun l hl => ?_⟩
          obtain rfl := List.mem_singleton.mp hl
          exact hlen
  | cons c file ih =>
      by_cases hc : c = 10
      · subst hc
        simp only [fgetsAll, true_or, if_true, List.mapM_cons, lineText_terminated hline] at h
        simp only [fileLines, if_true, List.map_cons, List.forall_mem_cons]
        split at h
        · cases h
        · simp only [Option.pure_def, Option.bind_eq_bind, Option.bind_some,
            Option.bind_eq_some_iff] at h
          obtain ⟨qs, hqs, heq⟩ := h
          obtain rfl := Option.some.inj heq
          obtain ⟨hps, hlens⟩ := ih (by simp) (by simp; omega) hqs
          exact ⟨by rw [hps], hlen, hlens⟩
      · have hnext : 10 ∉ line ++ [c] := by
          rw [List.mem_append, List.mem_singleton]
          rintro (hmem | heq)
          · exact hline hmem
          · exact hc heq.symm
        by_cases hfull : line.length + 2 = n
        · -- a full buffer without a line end cannot be read
          have hcut : 10 ∉ cutNul (line ++ [c]) := fun hmem =>
            hnext ((List.takeWhile_sublist _).subset hmem)
          simp only [fgetsAll, hfull, or_true, if_true, List.mapM_cons, lineText] at h
          rw [if_pos ⟨hcut, trivial⟩] at h
          cases h
        · simp only [fgetsAll, hc, hfull, or_self, if_false] at h
          simp only [fileLines, hc, if_false]
          refine ih hnext ?_ h
          rw [List.length_append, List.length_singleton]
          omega

theorem fileLines_newline {line file : Bytes} (hline : 10 ∉ line) :
    ∀ l ∈ fileLines line file, 10 ∉ l := by
  induction file generalizing line with
  | nil =>
      cases line with
      | nil => exact fun l hl => by simp [fileLines] at hl
      | cons c t =>
          intro l hl
          obtain rfl := List.mem_singleton.mp hl
          exact hline
  | cons c file ih =>
      by_cases hc : c = 10
      · simp only [fileLines, hc, if_true, List.forall_mem_cons]
        exact ⟨hline, ih (by simp)⟩
      · simp only [fileLines, hc, if_false]
        refine ih ?_
        rw [List.mem_append, List.mem_singleton]
        rintro (hmem | heq)
        · exact hline hmem
        · exact hc heq.symm

/-- Every byte but a line end is in a line. -/
theorem mem_fileLines {line file : Bytes} {d : UInt8} (hd : d ≠ 10) :
    (∃ l ∈ fileLines line file, d ∈ l) ↔ d ∈ line ∨ d ∈ file := by
  induction file generalizing line with
  | nil =>
      cases line with
      | nil => simp [fileLines]
      | cons c t => simp [fileLines]
  | cons c file ih =>
      by_cases hc : c = 10
      · have hrest : (∃ l ∈ fileLines [] file, d ∈ l) ↔ d ∈ [] ∨ d ∈ file := ih
        simp only [List.not_mem_nil, false_or] at hrest
        simp only [fileLines, hc, if_true, List.mem_cons, hd, false_or, ← hrest]
        constructor
        · rintro ⟨l, rfl | hl, hmem⟩
          · exact .inl hmem
          · exact .inr ⟨l, hl, hmem⟩
        · rintro (hmem | ⟨l, hl, hmem⟩)
          · exact ⟨line, .inl rfl, hmem⟩
          · exact ⟨l, .inr hl, hmem⟩
      · simp only [fileLines, hc, if_false, ih, List.mem_append, List.mem_cons, List.not_mem_nil,
          or_false, or_assoc]

/-! ## Whole files -/

/-- What a reader has done when its loop succeeds: every line is well formed, nothing was
set before the first header, and the sections of the file were loaded in their order. -/
theorem IniReader.run_file {σ ε : Type} {r : IniReader σ ε} {n : Nat} (hn : 2 ≤ n) {file : Bytes}
    {s s' : σ} (h : r.run 0 s (fgetsAll n [] file) = .ok s') :
    (∀ l ∈ fileLines [] file, l.length + 2 ≤ n) ∧ WellFormed (fileText file) ∧
      ∃ m, r.body (bodyOf (fileText file)) s = .ok m ∧ r.loadAll (fileSections file) m = .ok s' := by
  obtain ⟨ps, hps, hlines⟩ := run_ok.mp h
  obtain ⟨hps, hlens⟩ := fgets_texts (by simp) (by simpa using hn) hps
  have htext : ps.map parseLine = fileText file := by
    rw [hps, List.map_map]
    rfl
  rw [htext] at hlines
  exact ⟨hlens, lines_ok.mp hlines⟩

theorem fgetsAll_line {n : Nat} {line l : Bytes} (rest : Bytes) (hl : 10 ∉ l)
    (hlen : line.length + l.length + 2 ≤ n) :
    fgetsAll n line (l ++ 10 :: rest) = ⟨line ++ l ++ [10], false⟩ :: fgetsAll n [] rest := by
  induction l generalizing line with
  | nil => simp [fgetsAll]
  | cons c l ih =>
      have hc : c ≠ 10 := fun heq => hl (heq ▸ List.mem_cons_self)
      have hroom : line.length + 2 ≠ n := by
        rw [List.length_cons] at hlen
        omega
      rw [List.cons_append]
      simp only [fgetsAll, hc, hroom, or_self, if_false]
      rw [ih (fun hmem => hl (List.mem_cons_of_mem c hmem))]
      · simp
      · rw [List.length_append, List.length_cons, List.length_nil]
        rw [List.length_cons] at hlen
        omega

theorem fileLines_line {line l : Bytes} (rest : Bytes) (hl : 10 ∉ l) :
    fileLines line (l ++ 10 :: rest) = (line ++ l) :: fileLines [] rest := by
  induction l generalizing line with
  | nil => simp [fileLines]
  | cons c l ih =>
      have hc : c ≠ 10 := fun heq => hl (heq ▸ List.mem_cons_self)
      rw [List.cons_append]
      simp only [fileLines, hc, if_false]
      rw [ih fun hmem => hl (List.mem_cons_of_mem c hmem)]
      simp

theorem joinLines_cons (l : Bytes) (ls : List Bytes) :
    joinLines (l :: ls) = l ++ 10 :: joinLines ls := by
  simp [joinLines]

theorem fileLines_joinLines {ls : List Bytes} (hls : ∀ l ∈ ls, 10 ∉ l) :
    fileLines [] (joinLines ls) = ls := by
  induction ls with
  | nil => rfl
  | cons l ls ih =>
      rw [List.forall_mem_cons] at hls
      rw [joinLines_cons, fileLines_line _ hls.1, ih hls.2, List.nil_append]

/-- A file of terminated lines can be read exactly if no line is too long and none has a
NUL in it. -/
theorem joinLines_readable {n : Nat} {ls : List Bytes} (hls : ∀ l ∈ ls, 10 ∉ l)
    (hlen : ∀ l ∈ ls, l.length + 2 ≤ n) :
    ((fgetsAll n [] (joinLines ls)).mapM lineText).isSome ↔ ∀ l ∈ ls, 0 ∉ l := by
  induction ls with
  | nil => simp [joinLines, fgetsAll]
  | cons l ls ih =>
      rw [List.forall_mem_cons] at hls hlen ⊢
      have hrest := ih hls.2 hlen.2
      rw [joinLines_cons, fgetsAll_line _ hls.1 (by simpa using hlen.1), List.nil_append,
        List.mapM_cons, lineText_terminated hls.1, ← hrest]
      by_cases hnul : 0 ∈ l
      · simp [hnul]
      · cases (fgetsAll n [] (joinLines ls)).mapM lineText <;> simp [hnul]

/-- The loop on such a file. -/
theorem IniReader.run_joinLines {σ ε : Type} {r : IniReader σ ε} {n : Nat} (hn : 2 ≤ n)
    {ls : List Bytes} (hls : ∀ l ∈ ls, 10 ∉ l) (hlen : ∀ l ∈ ls, l.length + 2 ≤ n) {s s' : σ} :
    r.run 0 s (fgetsAll n [] (joinLines ls)) = .ok s' ↔
      (∀ l ∈ ls, 0 ∉ l) ∧ WellFormed (ls.map readLine) ∧
        ∃ m, r.body (bodyOf (ls.map readLine)) s = .ok m ∧
          r.loadAll (sections (ls.map readLine)) m = .ok s' := by
  have hfile : fileText (joinLines ls) = ls.map readLine := by
    unfold fileText
    rw [fileLines_joinLines hls]
  constructor
  · intro h
    obtain ⟨ps, hps, -⟩ := run_ok.mp h
    obtain ⟨-, hrest⟩ := run_file hn h
    refine ⟨(joinLines_readable hls hlen).mp (by rw [hps]; rfl), ?_⟩
    rw [fileSections, hfile] at hrest
    exact hrest
  · rintro ⟨hnul, hrest⟩
    obtain ⟨ps, hps⟩ := Option.isSome_iff_exists.mp ((joinLines_readable hls hlen).mpr hnul)
    refine run_ok.mpr ⟨ps, hps, ?_⟩
    obtain ⟨hps, -⟩ := fgets_texts (by simp) (by simpa using hn) hps
    rw [fileLines_joinLines hls] at hps
    have htext : ps.map parseLine = ls.map readLine := by
      rw [hps, List.map_map]
      rfl
    rw [htext]
    exact lines_ok.mpr hrest

/-! ## Keys and values -/

/-- A trimmed text does not start with white space. -/
theorem trim_head {s : Bytes} : ∀ c ∈ (trim s).head?, isspace c = false := by
  intro c hc
  obtain ⟨rest, hrest⟩ : trim s <+: s.dropWhile isspace := List.rdropWhile_prefix _ _
  have hhead : (s.dropWhile isspace).head? = some c := by
    rw [← hrest, List.head?_append, hc]
    rfl
  have hstop := List.head?_dropWhile_not isspace s
  rw [hhead] at hstop
  simpa using hstop

/-- The lines of a section are lines of the text. -/
theorem pair_of_section {ls : List TextLine} {sec : Bytes × Pairs} {kv : Bytes × Bytes}
    (hsec : sec ∈ sections ls) (hkv : kv ∈ sec.2) : .pair kv.1 kv.2 ∈ ls := by
  induction ls with
  | nil => cases hsec
  | cons l ls ih =>
      cases l with
      | header name =>
          rcases List.mem_cons.mp hsec with rfl | hsec
          · obtain ⟨l, hl, hpair⟩ := List.mem_filterMap.mp hkv
            have hmem := (List.takeWhile_sublist _).subset hl
            cases l with
            | pair k v =>
                cases hpair
                exact List.mem_cons_of_mem _ hmem
            | blank => cases hpair
            | header name => cases hpair
            | badHeader => cases hpair
            | other => cases hpair
          · exact List.mem_cons_of_mem _ (ih hsec)
      | blank => exact List.mem_cons_of_mem _ (ih hsec)
      | badHeader => exact List.mem_cons_of_mem _ (ih hsec)
      | pair k v => exact List.mem_cons_of_mem _ (ih hsec)
      | other => exact List.mem_cons_of_mem _ (ih hsec)

theorem parseLine_pair {p k v : Bytes} (h : parseLine p = .pair k v) : ∃ t, v = trim t := by
  unfold parseLine at h
  split at h
  · cases h
  · split at h
    · cases h
    · split at h
      · split at h <;> cases h
      · split at h
        · cases h
          exact ⟨_, rfl⟩
        · cases h

/-- The values of a file are trimmed. -/
theorem fileSections_value {file : Bytes} {sec : Bytes × Pairs} {kv : Bytes × Bytes}
    (hsec : sec ∈ fileSections file) (hkv : kv ∈ sec.2) :
    ∀ c ∈ kv.2.head?, isspace c = false := by
  obtain ⟨l, -, hl⟩ := List.mem_map.mp (pair_of_section hsec hkv)
  obtain ⟨t, ht⟩ := parseLine_pair hl
  rw [ht]
  exact trim_head

theorem mem_trim {s : Bytes} {c : UInt8} (h : c ∈ trim s) : c ∈ s :=
  (List.dropWhile_sublist _).subset ((List.rdropWhile_prefix _ _).subset h)

theorem mem_splitAtByte {c : UInt8} {s t u : Bytes} (h : splitAtByte c s = some (t, u)) :
    (∀ d ∈ t, d ∈ s) ∧ ∀ d ∈ u, d ∈ s := by
  unfold splitAtByte at h
  split at h
  · cases h
    refine ⟨fun d hd => (List.takeWhile_sublist _).subset hd, fun d hd => ?_⟩
    exact (List.dropWhile_sublist _).subset (List.mem_of_mem_tail hd)
  · cases h

/-- What a line says is made of its bytes. -/
theorem parseLine_mem (p : Bytes) :
    (∀ name, parseLine p = .header name → ∀ c ∈ name, c ∈ p) ∧
      ∀ k v, parseLine p = .pair k v → (∀ c ∈ k, c ∈ p) ∧ ∀ c ∈ v, c ∈ p := by
  cases p with
  | nil => exact ⟨fun name h => (by cases h), fun k v h => (by cases h)⟩
  | cons d t =>
      simp only [parseLine]
      by_cases hcomment : d = 35 ∨ d = 59
      · rw [if_pos hcomment]
        exact ⟨fun name h => (by cases h), fun k v h => (by cases h)⟩
      · rw [if_neg hcomment]
        by_cases hheader : d = 91
        · rw [if_pos hheader]
          split
          · rename_i name hsplit
            refine ⟨fun name' h c hc => ?_, fun k v h => (by cases h)⟩
            cases h
            exact List.mem_cons_of_mem d ((mem_splitAtByte hsplit).1 c hc)
          · exact ⟨fun name h => (by cases h), fun k v h => (by cases h)⟩
        · rw [if_neg hheader]
          split
          · rename_i k v hsplit
            refine ⟨fun name h => (by cases h), fun k' v' h => ?_⟩
            cases h
            have hmem := mem_splitAtByte hsplit
            exact ⟨fun c hc => hmem.1 c (mem_trim hc), fun c hc => hmem.2 c (mem_trim hc)⟩
          · exact ⟨fun name h => (by cases h), fun k v h => (by cases h)⟩

theorem cutNul_noNul (s : Bytes) : 0 ∉ cutNul s := fun h => by
  have hne := List.mem_takeWhile_imp h
  simp at hne

theorem header_of_section {ls : List TextLine} {sec : Bytes × Pairs} (hsec : sec ∈ sections ls) :
    .header sec.1 ∈ ls := by
  induction ls with
  | nil => cases hsec
  | cons l ls ih =>
      cases l with
      | header name =>
          rcases List.mem_cons.mp hsec with rfl | hsec
          · exact List.mem_cons_self
          · exact List.mem_cons_of_mem _ (ih hsec)
      | blank => exact List.mem_cons_of_mem _ (ih hsec)
      | badHeader => exact List.mem_cons_of_mem _ (ih hsec)
      | pair k v => exact List.mem_cons_of_mem _ (ih hsec)
      | other => exact List.mem_cons_of_mem _ (ih hsec)

/-- Names, keys and values are C strings. -/
theorem fileSections_noNul {file : Bytes} {sec : Bytes × Pairs} (hsec : sec ∈ fileSections file) :
    0 ∉ sec.1 ∧ ∀ kv ∈ sec.2, 0 ∉ kv.1 ∧ 0 ∉ kv.2 := by
  constructor
  · obtain ⟨l, -, hl⟩ := List.mem_map.mp (header_of_section hsec)
    exact fun h => cutNul_noNul l (mem_trim ((parseLine_mem _).1 _ hl 0 h))
  · intro kv hkv
    obtain ⟨l, -, hl⟩ := List.mem_map.mp (pair_of_section hsec hkv)
    have hmem := (parseLine_mem _).2 _ _ hl
    exact ⟨fun h => cutNul_noNul l (mem_trim (hmem.1 0 h)),
      fun h => cutNul_noNul l (mem_trim (hmem.2 0 h))⟩

end Ctunnel.Lib
