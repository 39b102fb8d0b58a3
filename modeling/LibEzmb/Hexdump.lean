import LibEzmb.BaseHex
import LibEzmb.BaseLoop

/-! The hexdump that the collector and the TCP actuator print of every message: its loop writes one line
for eight bytes, reads no byte outside the message, and what it has written can be read back. -/

open CHeap CBytes CLib

namespace LibEzmb

/-- A byte is read behind the end of the message. -/
inductive DumpFault where
  | outOfBounds
  deriving DecidableEq, Repr

/-- `data[i]`. -/
def dumpByte (data : Bytes) (i : Nat) : Except DumpFault UInt8 :=
  match data[i]? with
  | none => .error .outOfBounds
  | some b => .ok b

/-- `(c >= 32 && c <= 126) ? c : '.'`. -/
def printable (c : UInt8) : UInt8 := if 32 ≤ c ∧ c ≤ 126 then c else code '.'

/-- `%02X `. -/
def hexCell (b : UInt8) : Bytes := hexPadded 2 b.toNat ++ [code ' ']

/-- `%04zX: `. -/
def offsetText (i : Nat) : Bytes := hexPadded 4 i ++ [code ':', code ' ']

def blankCell : Bytes := [code ' ', code ' ', code ' ']

def barText : Bytes := [code ' ', code '|', code ' ']

/-- The loop over the line's characters, from index `j` on, with so many left. -/
def dumpText (data : Bytes) (len j : Nat) : Nat → Except DumpFault Bytes
  | 0 => .ok []
  | left + 1 => do
      let c ← if j < len then do .ok (printable (← dumpByte data j)) else .ok (code ' ')
      let rest ← dumpText data len (j + 1) left
      .ok (c :: rest)

/-- What ends a line, after the byte at index `i`. -/
def dumpLineEnd (data : Bytes) (len i : Nat) : Except DumpFault Bytes := do
  let blanks := if i % 8 ≠ 7 then (List.replicate (7 - i % 8) blankCell).flatten else []
  let text ← dumpText data len (i / 8 * 8) 8
  .ok (blanks ++ barText ++ text ++ [code '\n'])

/-- The body of the loop. -/
def dumpRound (data : Bytes) (len i : Nat) : Except DumpFault Bytes := do
  let offset := if i % 8 = 0 then offsetText i else []
  let b ← dumpByte data i
  let lineEnd ← if i % 8 = 7 ∨ i = len - 1 then dumpLineEnd data len i else .ok []
  .ok (offset ++ hexCell b ++ lineEnd)

/-- The loop from index `i` on, with so many bytes left. -/
def hexdumpFrom (data : Bytes) (len i : Nat) : Nat → Except DumpFault Bytes
  | 0 => .ok []
  | left + 1 => do
      let round ← dumpRound data len i
      let rest ← hexdumpFrom data len (i + 1) left
      .ok (round ++ rest)

/-- `hexdump`: what it prints. -/
def hexdump (data : Bytes) (len : Nat) : Except DumpFault Bytes := hexdumpFrom data len 0 len

/-! ### Reading a dump -/

/-- A line of a dump. -/
structure DumpRow where
  offset : Nat
  bytes : Bytes
  text : Bytes
  deriving DecidableEq, Repr

def dumpLines : Bytes → List Bytes
  | [] => []
  | b :: bs =>
      if b = code '\n' then [] :: dumpLines bs
      else match dumpLines bs with
        | [] => [[b]]
        | line :: lines => (b :: line) :: lines

/-- Up to so many cells, until a blank one. -/
def readCells : Nat → Bytes → Option Bytes
  | n + 1, high :: low :: _ :: rest =>
      if high = code ' ' then some []
      else do
        let b ← hexValue [high, low]
        let bytes ← readCells n rest
        some (UInt8.ofNat b :: bytes)
  | 0, _ => some []
  | _ + 1, _ => none

def readRow (line : Bytes) : Option DumpRow := do
  let digits := line.takeWhile (· != code ':')
  let columns := line.drop (digits.length + 2)
  let offset ← hexValue digits
  let bytes ← readCells 8 columns
  some ⟨offset, bytes, (columns.drop 27).take bytes.length⟩

def readDump (text : Bytes) : Option (List DumpRow) := (dumpLines text).mapM readRow

/-- What a dump is for: eight bytes on a line, the last line may be shorter. -/
def dumpRows (data : Bytes) : List DumpRow :=
  (List.range ((data.length + 7) / 8)).map fun k =>
    let bytes := (data.drop (8 * k)).take 8
    ⟨8 * k, bytes, bytes.map printable⟩

/-! ### The lines -/

/-- What a line has behind the cells of its bytes. -/
def rowEnd (bytes : Bytes) : Bytes :=
  (List.replicate (8 - bytes.length) blankCell).flatten ++ barText ++
    (bytes.map printable ++ List.replicate (8 - bytes.length) (code ' '))

/-- A line with these bytes, up to its end. -/
def rowLine (k : Nat) (bytes : Bytes) : Bytes :=
  offsetText (8 * k) ++ bytes.flatMap hexCell ++ rowEnd bytes

/-- The bytes of a line. -/
def rowBytes (data : Bytes) (k : Nat) : Bytes := (data.drop (8 * k)).take 8

section Lines

variable {data bytes : Bytes}
  (hreads : ∀ (i : Nat) (b : UInt8), bytes[i]? = some b → data[i]? = some b)
include hreads

theorem dumpByte_eq {i : Nat} (hi : i < bytes.length) : dumpByte data i = .ok bytes[i] := by
  simp only [dumpByte, hreads i bytes[i] (List.getElem?_eq_getElem hi)]

theorem dumpText_eq (j left : Nat) : dumpText data bytes.length j left =
    .ok (((bytes.drop j).take left).map printable ++
      List.replicate (left - (bytes.length - j)) (code ' ')) := by
  induction left generalizing j with
  | zero => simp [dumpText]
  | succ left ih =>
      by_cases hj : j < bytes.length
      · have hcount : left + 1 - (bytes.length - j) = left - (bytes.length - (j + 1)) := by omega
        simp only [dumpText, if_pos hj, dumpByte_eq hreads hj, ih, ok_bind]
        rw [List.drop_eq_getElem_cons hj, List.take_succ_cons, List.map_cons, hcount,
          List.cons_append]
      · have hnil : bytes.drop j = [] := List.drop_eq_nil_of_le (by omega)
        have hnil' : bytes.drop (j + 1) = [] := List.drop_eq_nil_of_le (by omega)
        have hcount : left + 1 - (bytes.length - j) = left - (bytes.length - (j + 1)) + 1 := by omega
        simp only [dumpText, if_neg hj, ih, ok_bind]
        rw [hnil, hnil', hcount, List.replicate_succ]
        simp

/-- The end of a line, behind its last byte. -/
theorem dumpLineEnd_eq {i : Nat} (hi : i < bytes.length) (hlast : i % 8 = 7 ∨ i = bytes.length - 1) :
    dumpLineEnd data bytes.length i =
      .ok (rowEnd (rowBytes bytes (i / 8)) ++ [code '\n']) := by
  have hlength : (rowBytes bytes (i / 8)).length = i % 8 + 1 := by
    rw [rowBytes, List.length_take, List.length_drop]
    omega
  have hblanks : (if i % 8 ≠ 7 then (List.replicate (7 - i % 8) blankCell).flatten else []) =
      (List.replicate (8 - (rowBytes bytes (i / 8)).length) blankCell).flatten := by
    rw [hlength, show 8 - (i % 8 + 1) = 7 - i % 8 by omega]
    split
    · rfl
    · next hseven => rw [show 7 - i % 8 = 0 by omega]; rfl
  have htext : 8 - (bytes.length - i / 8 * 8) = 8 - (rowBytes bytes (i / 8)).length := by
    rw [rowBytes, List.length_take, List.length_drop]
    omega
  rw [dumpLineEnd, dumpText_eq hreads, ok_bind, hblanks, htext, Nat.mul_comm]
  simp only [rowEnd, rowBytes, List.append_assoc]

/-- From one of the bytes of a line on, when it is known what follows the line. -/
theorem hexdumpFrom_line (i left : Nat) (hi : i + left = bytes.length) (hpos : 0 < left) {rest : Bytes}
    (hrest : hexdumpFrom data bytes.length (8 * (i / 8) + 8) (bytes.length - (8 * (i / 8) + 8)) =
      .ok rest) :
    hexdumpFrom data bytes.length i left =
      .ok ((if i % 8 = 0 then offsetText i else []) ++
        ((bytes.drop i).take (8 - i % 8)).flatMap hexCell ++ rowEnd (rowBytes bytes (i / 8)) ++
        [code '\n'] ++ rest) := by
  induction left generalizing i with
  | zero => exact absurd hpos (lt_irrefl 0)
  | succ left ih =>
      have hlt : i < bytes.length := by omega
      have htake : (bytes.drop i).take (8 - i % 8) =
          bytes[i] :: (bytes.drop (i + 1)).take (7 - i % 8) := by
        rw [List.drop_eq_getElem_cons hlt, show 8 - i % 8 = 7 - i % 8 + 1 by omega,
          List.take_succ_cons]
      by_cases hlast : i % 8 = 7 ∨ i = bytes.length - 1
      · have hnext : hexdumpFrom data bytes.length (i + 1) left = .ok rest := by
          rcases hlast with hseven | hend
          · rw [← hrest, show 8 * (i / 8) + 8 = i + 1 by omega]
            congr 1
            omega
          · rw [show bytes.length - (8 * (i / 8) + 8) = 0 by omega] at hrest
            rw [show left = 0 by omega]
            exact hrest
        have hnone : (bytes.drop (i + 1)).take (7 - i % 8) = [] := by
          rcases hlast with hseven | hend
          · rw [hseven]
            rfl
          · rw [List.drop_eq_nil_of_le (by omega), List.take_nil]
        simp only [hexdumpFrom, dumpRound, dumpByte_eq hreads hlt, if_pos hlast,
          dumpLineEnd_eq hreads hlt hlast, ok_bind, hnext, htake, hnone]
        simp
      · rw [not_or] at hlast
        have hnext := ih (i + 1) (by omega) (by omega)
          (by rw [show (i + 1) / 8 = i / 8 by omega]; exact hrest)
        rw [show (i + 1) / 8 = i / 8 by omega, if_neg (by omega : ¬(i + 1) % 8 = 0),
          show 8 - (i + 1) % 8 = 7 - i % 8 by omega] at hnext
        simp only [hexdumpFrom, dumpRound, dumpByte_eq hreads hlt, if_neg (not_or.mpr hlast), ok_bind,
          hnext, htake]
        simp

/-- The lines from one of them on. -/
theorem hexdumpFrom_lines {n k : Nat} (hn : n = (bytes.length + 7) / 8 - k) :
    hexdumpFrom data bytes.length (8 * k) (bytes.length - 8 * k) =
      .ok ((List.range' k n).flatMap fun k => rowLine k (rowBytes bytes k) ++ [code '\n']) := by
  induction n generalizing k with
  | zero =>
      rw [show bytes.length - 8 * k = 0 by omega]
      rfl
  | succ n ih =>
      have hrest := ih (k := k + 1) (by omega)
      rw [Nat.mul_succ] at hrest
      have hdiv : 8 * k / 8 = k := by omega
      have hline := hexdumpFrom_line hreads (8 * k) (bytes.length - 8 * k) (by omega) (by omega)
        (by rw [hdiv]; exact hrest)
      rw [hline, hdiv, if_pos (by omega), show 8 - 8 * k % 8 = 8 by omega, List.range'_succ,
        List.flatMap_cons]
      simp only [rowLine, rowBytes, List.append_assoc]

end Lines

/-! ### What is read back -/

theorem dumpLines_line {line : Bytes} (hline : code '\n' ∉ line) (rest : Bytes) :
    dumpLines (line ++ [code '\n'] ++ rest) = line :: dumpLines rest := by
  induction line with
  | nil => simp [dumpLines]
  | cons b line ih =>
      rw [List.mem_cons, not_or] at hline
      rw [List.cons_append, List.cons_append, dumpLines, if_neg (Ne.symm hline.1), ih hline.2]

theorem hexPadded_two {n : Nat} (hn : n < 256) :
    ∃ high low, hexPadded 2 n = [high, low] ∧ high ≠ code ' ' := by
  have hlength : (hexPadded 2 n).length = 2 := hexPadded_length hn
  obtain ⟨high, low, heq⟩ := List.length_eq_two.mp hlength
  refine ⟨high, low, heq, ?_⟩
  rintro rfl
  have hdigit := mem_hexPadded (heq ▸ List.mem_cons_self : code ' ' ∈ hexPadded 2 n)
  exact absurd hdigit.1 (by decide)

/-- The cells are read up to the blank behind them. -/
theorem readCells_cells {n : Nat} {bytes : Bytes} (hlen : bytes.length ≤ n) (x y : UInt8)
    (rest : Bytes) :
    readCells n (bytes.flatMap hexCell ++ (code ' ' :: x :: y :: rest)) = some bytes := by
  induction bytes generalizing n with
  | nil =>
      cases n with
      | zero => rfl
      | succ n => rw [List.flatMap_nil, List.nil_append, readCells, if_pos rfl]
  | cons b bytes ih =>
      cases n with
      | zero => exact absurd hlen (Nat.not_succ_le_zero _)
      | succ n =>
          obtain ⟨high, low, hpair, hplain⟩ := hexPadded_two b.toNat_lt
          have hvalue : hexValue [high, low] = some b.toNat := by
            rw [← hpair]
            exact hexValue_hexPadded 2 _
          rw [List.flatMap_cons, hexCell, hpair]
          simp only [List.cons_append, List.nil_append, readCells, if_neg hplain, hvalue,
            ih (Nat.succ_le_succ_iff.mp hlen)]
          simp

theorem rowEnd_blank (bytes : Bytes) : ∃ x y rest, rowEnd bytes = code ' ' :: x :: y :: rest := by
  rw [rowEnd]
  cases 8 - bytes.length with
  | zero => exact ⟨_, _, _, rfl⟩
  | succ n => exact ⟨_, _, _, rfl⟩

theorem rowEnd_drop (bytes : Bytes) : (rowEnd bytes).drop (3 * (8 - bytes.length) + 3) =
    bytes.map printable ++ List.replicate (8 - bytes.length) (code ' ') := by
  have hlength : ((List.replicate (8 - bytes.length) blankCell).flatten ++ barText).length =
      3 * (8 - bytes.length) + 3 := by
    simp [blankCell, barText, Nat.mul_comm]
  rw [rowEnd, ← hlength]
  exact List.drop_left

theorem flatMap_hexCell_length (bytes : Bytes) : (bytes.flatMap hexCell).length = 3 * bytes.length := by
  induction bytes with
  | nil => rfl
  | cons b bytes ih =>
      have hcell : (hexCell b).length = 3 := by
        rw [hexCell, List.length_append, hexPadded_length (by exact b.toNat_lt)]
        rfl
      rw [List.flatMap_cons, List.length_append, ih, hcell, List.length_cons]
      omega

/-- A line tells its offset, its bytes and their characters. -/
theorem readRow_rowLine (k : Nat) {bytes : Bytes} (hlen : bytes.length ≤ 8) :
    readRow (rowLine k bytes) = some ⟨8 * k, bytes, bytes.map printable⟩ := by
  have hdigits : (rowLine k bytes).takeWhile (· != code ':') = hexPadded 4 (8 * k) := by
    rw [rowLine, offsetText, List.append_assoc, List.append_assoc, List.takeWhile_append_of_pos]
    · rw [List.cons_append, List.takeWhile_cons_of_neg (by simp), List.append_nil]
    · intro b hb
      simpa using (mem_hexPadded hb).2.2
  have hcolumns : (rowLine k bytes).drop ((hexPadded 4 (8 * k)).length + 2) =
      bytes.flatMap hexCell ++ rowEnd bytes := by
    have hlength : (offsetText (8 * k)).length = (hexPadded 4 (8 * k)).length + 2 := by
      rw [offsetText, List.length_append]
      rfl
    rw [rowLine, List.append_assoc, ← hlength, List.drop_left]
  have hcells : readCells 8 (bytes.flatMap hexCell ++ rowEnd bytes) = some bytes := by
    obtain ⟨x, y, rest, heq⟩ := rowEnd_blank bytes
    rw [heq]
    exact readCells_cells hlen x y rest
  have htext : ((bytes.flatMap hexCell ++ rowEnd bytes).drop 27).take bytes.length =
      bytes.map printable := by
    have hcount : 27 = (bytes.flatMap hexCell).length + (3 * (8 - bytes.length) + 3) := by
      rw [flatMap_hexCell_length]
      omega
    rw [hcount, List.drop_append, List.drop_eq_nil_of_le (Nat.le_add_right _ _), List.nil_append,
      Nat.add_sub_cancel_left, rowEnd_drop]
    exact List.take_left' (List.length_map _)
  simp only [readRow, hdigits, hcolumns, hcells, hexValue_hexPadded]
  rw [← htext]
  rfl

/-- No character of a line ends it. -/
theorem newline_notMem_rowLine (k : Nat) (bytes : Bytes) : code '\n' ∉ rowLine k bytes := by
  have hdigits : ∀ {w n : Nat}, code '\n' ∉ hexPadded w n := fun hmem =>
    absurd (mem_hexPadded hmem).1 (by decide)
  have hprintable : ∀ c : UInt8, printable c ≠ code '\n' := by
    intro c
    unfold printable
    split
    · next hrange =>
        rintro rfl
        exact absurd hrange.1 (by decide)
    · decide
  simp only [rowLine, offsetText, rowEnd, List.mem_append, List.mem_flatMap, List.mem_flatten,
    List.mem_map, hexCell, not_or]
  refine ⟨⟨⟨hdigits, by decide⟩, ?_⟩, ⟨?_, by decide⟩, ?_, ?_⟩
  · rintro ⟨b, -, hmem | hmem⟩
    · exact hdigits hmem
    · exact absurd hmem (by decide)
  · rintro ⟨cell, hcell, hmem⟩
    rw [List.eq_of_mem_replicate hcell] at hmem
    exact absurd hmem (by decide)
  · rintro ⟨c, -, heq⟩
    exact hprintable c heq
  · intro hmem
    exact absurd (List.eq_of_mem_replicate hmem) (by decide)

theorem readDump_lines (data : Bytes) (ks : List Nat) :
    readDump (ks.flatMap fun k => rowLine k (rowBytes data k) ++ [code '\n']) =
      some (ks.map fun k => ⟨8 * k, rowBytes data k, (rowBytes data k).map printable⟩) := by
  induction ks with
  | nil => rfl
  | cons k ks ih =>
      have hlen : (rowBytes data k).length ≤ 8 := List.length_take_le _ _
      rw [readDump] at ih
      rw [List.flatMap_cons, readDump, dumpLines_line (newline_notMem_rowLine k _), List.mapM_cons,
        readRow_rowLine k hlen, ih]
      rfl

theorem flatMap_rowBytes (data : Bytes) (n : Nat) :
    (List.range n).flatMap (rowBytes data) = data.take (8 * n) := by
  induction n with
  | zero => rfl
  | succ n ih =>
      rw [List.range_succ, List.flatMap_append, ih, List.flatMap_singleton, rowBytes, Nat.mul_succ]
      exact List.take_add.symm

/-- The bytes of the lines are the message. -/
theorem dumpRows_bytes (data : Bytes) : (dumpRows data).flatMap DumpRow.bytes = data := by
  rw [dumpRows, List.flatMap_map]
  refine (flatMap_rowBytes data _).trans (List.take_of_length_le ?_)
  omega

/-- The loop does not get past the end of the message. -/
theorem hexdumpFrom_error {data : Bytes} {len i left : Nat} (hi : i ≤ data.length)
    (hend : data.length < i + left) : hexdumpFrom data len i left = .error .outOfBounds := by
  induction left generalizing i with
  | zero => omega
  | succ left ih =>
      rw [hexdumpFrom]
      cases hround : dumpRound data len i with
      | error e => cases e; rfl
      | ok round =>
          have hlt : i < data.length := by
            by_contra hge
            have hnone : data[i]? = none := List.getElem?_eq_none (by omega)
            simp only [dumpRound, dumpByte, hnone] at hround
            cases hround
          rw [ok_bind, ih (by omega) (by omega)]
          rfl

/-- **The dump.** It reads beyond the message exactly when it is told a length beyond its end; else a
reader finds on each line the offset, the bytes from there and their characters, and the bytes of all
lines are what was dumped. -/
theorem hexdump_reads_back (data : Bytes) (len : Nat) :
    (data.length < len ∧ hexdump data len = .error .outOfBounds) ∨
      (len ≤ data.length ∧ ∃ text rows, hexdump data len = .ok text ∧ readDump text = some rows ∧
        rows = dumpRows (data.take len) ∧ rows.flatMap DumpRow.bytes = data.take len) := by
  by_cases hlen : data.length < len
  · exact Or.inl ⟨hlen, hexdumpFrom_error (Nat.zero_le _) (by omega)⟩
  · have hlength : (data.take len).length = len := by
      rw [List.length_take]
      omega
    have hreads : ∀ (i : Nat) (b : UInt8), (data.take len)[i]? = some b → data[i]? = some b := by
      intro i b hb
      rw [List.getElem?_take] at hb
      split at hb
      · exact hb
      · cases hb
    have hlines := hexdumpFrom_lines hreads (k := 0) rfl
    rw [Nat.mul_zero, Nat.sub_zero, Nat.sub_zero, hlength, ← List.range_eq_range'] at hlines
    refine Or.inr ⟨not_lt.mp hlen, _, _, hlines, readDump_lines _ _, ?_, ?_⟩
    · rw [dumpRows, hlength]
      rfl
    · have hrows := dumpRows_bytes (data.take len)
      rw [dumpRows, hlength] at hrows
      exact hrows

example : (hexdump [72, 105, 0, 1, 2, 3, 4, 5, 6] 9).toOption.bind readDump =
    some [⟨0, [72, 105, 0, 1, 2, 3, 4, 5], [72, 105, 46, 46, 46, 46, 46, 46]⟩, ⟨8, [6], [46]⟩] := by
  decide

end LibEzmb
