import EmergencyNet.Base.Util

/-!
# The external flash

`base/node_properties.c` keeps one block of bytes in the flash of the node, behind a tag that says
that it is there.  Below it is `platform/sky/dev/xmem.c`, the driver of the chip.  Programming a
cell can only clear bits of it; only an erased cell takes any byte.  The driver inverts what it
writes and what it reads, so that erased memory reads as zeros.

The block is erased first and the tag is written before it, so that a node that loses power between
two commands to the chip may find the tag without its block.

## Main definitions

* `Xmem`, `FlashCommand` — the chip.
* `xmemPread`, `xmemPwrite`, `xmemErase` — its driver.
* `nodePropertiesBurn`, `nodePropertiesRestore` — the block.

## Main results

* `runAll_xmemPwrite` — what the driver writes, page by page, lies one byte after the other.
* `restore_burn` — **a block that has been burnt is restored.**
* `restore_take_burn` — **what is restored after a part of the commands.**
-/

namespace EmergencyNet

/-! ### The chip -/

/-- The cells of the chip. -/
abbrev Xmem := ℕ → UInt8

/-- The size of a page of the chip. -/
def pageSize : ℕ := 256

/-- `XMEM_ERASE_UNIT_SIZE`: the size of a sector. -/
def xmemEraseUnitSize : ℕ := 64 * 1024

/-- What the driver tells the chip to do. -/
inductive FlashCommand
  /-- `SPI_FLASH_INS_SE`: the sector is erased. -/
  | erase (offset : ℕ)
  /-- `SPI_FLASH_INS_PP`: the page is programmed from `offset` on, and from its beginning when its
  end has been reached. -/
  | program (offset : ℕ) (bytes : List UInt8)
  deriving DecidableEq, Repr

/-- The cells after a command. -/
def FlashCommand.run : FlashCommand → Xmem → Xmem
  | .erase offset, x => fun a =>
    if a / xmemEraseUnitSize = offset / xmemEraseUnitSize then 0xff else x a
  | .program offset bytes, x => fun a =>
    let i := (a % pageSize + pageSize - offset % pageSize) % pageSize
    if a / pageSize = offset / pageSize ∧ i < bytes.length then x a &&& byteAt bytes i else x a

/-- The cells after some commands. -/
def runAll (l : List FlashCommand) (x : Xmem) : Xmem := l.foldl (fun x c => c.run x) x

@[simp] theorem runAll_nil (x : Xmem) : runAll [] x = x := rfl

@[simp] theorem runAll_cons (c : FlashCommand) (l : List FlashCommand) (x : Xmem) :
    runAll (c :: l) x = runAll l (c.run x) := rfl

@[simp] theorem runAll_append (l m : List FlashCommand) (x : Xmem) :
    runAll (l ++ m) x = runAll m (runAll l x) := List.foldl_append

/-! ### The driver -/

/-- `xmem_pread`. -/
def xmemPread (size offset : ℕ) (x : Xmem) : List UInt8 :=
  (List.range size).map fun i => ~~~ x (offset + i)

/-- `program_page`. -/
def programPage (offset : ℕ) (p : List UInt8) : FlashCommand :=
  .program offset (p.map fun b => ~~~ b)

/-- The page after that of `i`. -/
def nextPage (i : ℕ) : ℕ := (i ||| 0xff) + 1

theorem nextPage_eq (i : ℕ) : nextPage i = i - i % pageSize + pageSize := by
  have hor : i % 256 ||| 255 = 255 := by
    have hall : ∀ r < 256, r ||| 255 = 255 := by decide +kernel
    exact hall _ (Nat.mod_lt _ (by omega))
  have hsplit : i = 2 ^ 8 * (i / 256) ||| i % 256 := by
    rw [← Nat.two_pow_add_eq_or_of_lt (Nat.mod_lt _ (by omega))]
    omega
  have hlor : i ||| 255 = 2 ^ 8 * (i / 256) + 255 := by
    rw [Nat.two_pow_add_eq_or_of_lt (by omega)]
    nth_rewrite 1 [hsplit]
    rw [Nat.lor_assoc, hor]
  rw [nextPage, hlor, pageSize]
  omega

/-- `xmem_pwrite`: a command for each page. -/
def xmemPwrite (p : List UInt8) (addr : ℕ) : List FlashCommand :=
  if h : p = [] then []
  else
    have : 0 < p.length := List.length_pos_iff.mpr h
    let n := min (nextPage addr) (addr + p.length) - addr
    programPage addr (p.take n) :: xmemPwrite (p.drop n) (addr + n)
termination_by p.length
decreasing_by
  have hnext := nextPage_eq addr
  rw [pageSize] at hnext
  rw [List.length_drop]
  omega

/-- `xmem_erase`: a command for each sector, none when a check fails. -/
def xmemErase (size addr : ℕ) : List FlashCommand :=
  if size % xmemEraseUnitSize ≠ 0 then []
  else if addr % xmemEraseUnitSize ≠ 0 then []
  else (List.range (size / xmemEraseUnitSize)).map fun i => .erase (addr + i * xmemEraseUnitSize)

/-! ### The block -/

/-- `node_properties_restore`: the block of `size` bytes, if the tag is there. -/
def nodePropertiesRestore (size : ℕ) (x : Xmem) : Option (List UInt8) :=
  let tag := xmemPread 2 0 x
  if byteAt tag 0 = 0xde ∧ byteAt tag 1 = 0xad then some (xmemPread size 2 x) else none

/-- `node_properties_burn`. -/
def nodePropertiesBurn (p : List UInt8) : List FlashCommand :=
  xmemErase xmemEraseUnitSize 0 ++ xmemPwrite [0xde, 0xad] 0 ++ xmemPwrite p 2

/-! ### What the driver writes -/

/-- Bytes that fit into the rest of the page lie one after the other. -/
theorem run_programPage {p : List UInt8} {addr : ℕ} (h : addr % pageSize + p.length ≤ pageSize)
    (x : Xmem) (a : ℕ) : (programPage addr p).run x a =
      if addr ≤ a ∧ a < addr + p.length then x a &&& ~~~ byteAt p (a - addr) else x a := by
  rw [pageSize] at h
  simp only [programPage, FlashCommand.run, List.length_map, pageSize]
  by_cases hin : addr ≤ a ∧ a < addr + p.length
  · have hi : (a % 256 + 256 - addr % 256) % 256 = a - addr := by omega
    have hbyte : byteAt (p.map fun b => ~~~ b) (a - addr) = ~~~ byteAt p (a - addr) := by
      simp only [byteAt]
      rw [List.getD_eq_getElem _ _ (by simp; omega), List.getElem_map,
        List.getD_eq_getElem _ _ (by omega)]
    rw [if_pos hin, hi, if_pos ⟨by omega, by omega⟩, hbyte]
  · rw [if_neg hin, if_neg]
    rintro ⟨hpage, hi⟩
    omega

/-- **What the driver writes lies one byte after the other**, over as many pages as it takes. -/
theorem runAll_xmemPwrite (p : List UInt8) (addr : ℕ) : ∀ (x : Xmem) (a : ℕ),
    runAll (xmemPwrite p addr) x a =
      if addr ≤ a ∧ a < addr + p.length then x a &&& ~~~ byteAt p (a - addr) else x a := by
  fun_induction xmemPwrite p addr with
  | case1 addr =>
    intro x a
    rw [runAll_nil, if_neg]
    simp
  | case2 p addr hne _ n ih =>
    intro x a
    have hnext := nextPage_eq addr
    rw [pageSize] at hnext
    have hn : n = min (nextPage addr) (addr + p.length) - addr := rfl
    have hlen : (p.take n).length = n := by
      rw [List.length_take]
      omega
    rw [runAll_cons, ih, run_programPage (by rw [hlen, pageSize]; omega), hlen, List.length_drop,
      byteAt_drop]
    -- a cell is in the page that is programmed now, or in a later one, or in none
    by_cases hlow : addr ≤ a ∧ a < addr + n
    · have hbyte : byteAt (p.take n) (a - addr) = byteAt p (a - addr) := by
        rw [byteAt, byteAt, List.getD_eq_getElem _ _ (by rw [hlen]; omega), List.getElem_take,
          List.getD_eq_getElem]
      rw [if_neg (by omega), if_pos hlow, if_pos (by omega), hbyte]
    · by_cases hhigh : addr + n ≤ a ∧ a < addr + n + (p.length - n)
      · have hoff : n + (a - (addr + n)) = a - addr := by omega
        rw [if_pos hhigh, if_neg hlow, if_pos (by omega), hoff]
      · rw [if_neg hhigh, if_neg hlow, if_neg (by omega)]

/-- What fits into one page is one command. -/
theorem xmemPwrite_page {p : List UInt8} {addr : ℕ} (hne : p ≠ [])
    (h : addr % pageSize + p.length ≤ pageSize) : xmemPwrite p addr = [programPage addr p] := by
  have hnext := nextPage_eq addr
  rw [pageSize] at h hnext
  have hn : min (nextPage addr) (addr + p.length) - addr = p.length := by omega
  rw [xmemPwrite, dif_neg hne]
  simp only [hn, List.take_length, List.drop_length]
  rw [xmemPwrite, dif_pos rfl]

/-! ### What is restored -/

/-- An erased cell takes any byte. -/
theorem erased_and (b : UInt8) : 0xff &&& b = b := UInt8.neg_one_and

theorem byteAt_nil (i : ℕ) : byteAt [] i = 0 := rfl

/-- The cells of the block while it is written: it has been erased, and the tag and the bytes `p`
have been programmed. -/
structure Programmed (tagged : Bool) (p : List UInt8) (x : Xmem) : Prop where
  tag : ∀ a < 2, x a = if tagged then ~~~ byteAt [0xde, 0xad] a else 0xff
  block : ∀ a, a + 2 < xmemEraseUnitSize → x (a + 2) = ~~~ byteAt p a

theorem programmed_erase (x : Xmem) :
    Programmed false [] (runAll (xmemErase xmemEraseUnitSize 0) x) := by
  have herase : ∀ a < xmemEraseUnitSize, runAll (xmemErase xmemEraseUnitSize 0) x a = 0xff := by
    intro a ha
    change (if a / xmemEraseUnitSize = 0 then _ else _) = _
    rw [if_pos]
    rw [xmemEraseUnitSize] at ha ⊢
    omega
  refine ⟨fun a ha => ?_, fun a ha => ?_⟩
  · rw [herase a (by rw [xmemEraseUnitSize]; omega), if_neg Bool.false_ne_true]
  · rw [herase _ ha, byteAt_nil]
    rfl

theorem Programmed.tagged {x : Xmem} (h : Programmed false [] x) :
    Programmed true [] (runAll (xmemPwrite [0xde, 0xad] 0) x) := by
  refine ⟨fun a ha => ?_, fun a ha => ?_⟩
  · rw [runAll_xmemPwrite, if_pos ⟨Nat.zero_le a, ha⟩, h.tag a ha, if_neg Bool.false_ne_true,
      if_pos rfl]
    exact erased_and _
  · rw [runAll_xmemPwrite, if_neg (by simp), h.block a ha]

theorem Programmed.written {x : Xmem} (h : Programmed true [] x) (p : List UInt8) :
    Programmed true p (runAll (xmemPwrite p 2) x) := by
  refine ⟨fun a ha => ?_, fun a ha => ?_⟩
  · rw [runAll_xmemPwrite, if_neg (by omega), h.tag a ha]
  · rw [runAll_xmemPwrite]
    have hempty : x (a + 2) = 0xff := by
      rw [h.block a ha, byteAt_nil]
      rfl
    by_cases hin : a < p.length
    · rw [if_pos (by omega), hempty, Nat.add_sub_cancel]
      exact erased_and _
    · rw [if_neg (by omega), hempty, byteAt, List.getD_eq_default _ _ (by omega)]
      rfl

/-- A block is found if and only if the tag has been written. -/
theorem Programmed.restore {x : Xmem} {tagged : Bool} {p : List UInt8} {n : ℕ}
    (h : Programmed tagged p x) (hn : n + 2 ≤ xmemEraseUnitSize) :
    nodePropertiesRestore n x = if tagged then some (memRead p n) else none := by
  have htag : xmemPread 2 0 x = if tagged then [0xde, 0xad] else [0, 0] := by
    have hread : xmemPread 2 0 x = [~~~ x 0, ~~~ x 1] := rfl
    rw [hread, h.tag 0 (by omega), h.tag 1 (by omega)]
    cases tagged <;> rfl
  rw [nodePropertiesRestore, htag]
  cases tagged with
  | false => rfl
  | true =>
    have hblock : xmemPread n 2 x = memRead p n := by
      apply List.ext_getElem
      · simp [xmemPread]
      · intro i hi hi'
        have hlt : i < n := by simpa [xmemPread] using hi
        have hbyte := byteAt_memRead (m := p) hlt
        rw [byteAt, List.getD_eq_getElem _ _ hi'] at hbyte
        rw [hbyte]
        simp only [xmemPread, List.getElem_map, List.getElem_range]
        rw [Nat.add_comm, h.block i (by omega)]
        simp
    rw [hblock]
    rfl

/-- **A block that has been burnt is restored**, with zeros behind it. -/
theorem restore_burn {n : ℕ} (hn : n + 2 ≤ xmemEraseUnitSize) (p : List UInt8) (x : Xmem) :
    nodePropertiesRestore n (runAll (nodePropertiesBurn p) x) = some (memRead p n) := by
  rw [nodePropertiesBurn, runAll_append, runAll_append]
  exact (((programmed_erase x).tagged.written p).restore hn).trans (if_pos rfl)

/-- What `node_properties_restore` finds after the first `k` commands of a burn, if it found `old`
before. -/
def foundAfter (n : ℕ) (p : List UInt8) (old : Option (List UInt8)) : ℕ → Option (List UInt8)
  | 0 => old
  | 1 => none
  | 2 => some (memRead [] n)
  | _ => some (memRead p n)

/-- **A burn that is cut short** leaves the old block, no block, a blank one or the new one. -/
theorem restore_take_burn {p : List UInt8} {n : ℕ} (hne : p ≠ []) (hp : 2 + p.length ≤ pageSize)
    (hn : n + 2 ≤ xmemEraseUnitSize) (x : Xmem) (k : ℕ) :
    nodePropertiesRestore n (runAll ((nodePropertiesBurn p).take k) x) =
      foundAfter n p (nodePropertiesRestore n x) k := by
  have hcommands : nodePropertiesBurn p =
      xmemErase xmemEraseUnitSize 0 ++ (xmemPwrite [0xde, 0xad] 0 ++ xmemPwrite p 2) :=
    List.append_assoc ..
  have herase : (xmemErase xmemEraseUnitSize 0).length = 1 := rfl
  have htag : (xmemPwrite [0xde, 0xad] 0).length = 1 :=
    congrArg List.length (xmemPwrite_page (by decide) (by decide))
  have hblock : (xmemPwrite p 2).length = 1 := congrArg List.length (xmemPwrite_page hne hp)
  have htake : ∀ k, (nodePropertiesBurn p).take k = (xmemErase xmemEraseUnitSize 0).take k ++
      ((xmemPwrite [0xde, 0xad] 0).take (k - 1) ++ (xmemPwrite p 2).take (k - 2)) := by
    intro k
    rw [hcommands, List.take_append, List.take_append, herase, htag, Nat.sub_sub]
  match k with
  | 0 => rfl
  | 1 =>
    rw [htake, List.take_of_length_le herase.le, List.take_zero, List.take_zero, List.append_nil,
      List.append_nil]
    exact ((programmed_erase x).restore hn).trans (if_neg Bool.false_ne_true)
  | 2 =>
    rw [htake, List.take_of_length_le (by omega), List.take_of_length_le (by omega), List.take_zero,
      List.append_nil, runAll_append]
    exact ((programmed_erase x).tagged.restore hn).trans (if_pos rfl)
  | k + 3 =>
    have hall : (nodePropertiesBurn p).take (k + 3) = nodePropertiesBurn p := by
      rw [htake, List.take_of_length_le (by omega), List.take_of_length_le (by omega),
        List.take_of_length_le (by omega), hcommands]
    rw [hall]
    exact restore_burn hn p x

end EmergencyNet
