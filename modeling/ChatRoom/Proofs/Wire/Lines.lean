import ChatRoom.Connection
import ChatRoom.Proofs.Text.Lines

/-!
# Lines on the wire

A byte below 128 stands for its character and for nothing else (`mem_encode_iff`), so line feeds and
carriage returns can be looked for among bytes or among characters alike.

* Reading: whatever comes in, both kinds of connection give the chat nothing but lines
  (`Connection.isClean_of_hear`).
* Writing: the bytes of lines, cut at line feeds, are these lines again (`splitOn_writeAll`).
-/

namespace ChatRoom

open Text

/-! ## Bytes -/

namespace Utf8

theorem encode_eq_flatMap (s : String) : encode s = s.toList.flatMap String.utf8EncodeChar := by
  rw [encode, ← String.utf8Encode_toList]
  simp [List.utf8Encode]

theorem mem_utf8EncodeChar {c : Char} {n : Nat} (hn : n < 128) :
    UInt8.ofNat n ∈ String.utf8EncodeChar c ↔ c.toNat = n := by
  have hc : c.val.toNat = c.toNat := rfl
  -- every byte of a longer encoding is 128 or more
  unfold String.utf8EncodeChar
  simp only [hc]
  split
  · simp only [List.mem_singleton, ← UInt8.toNat_inj, UInt8.toNat_ofNat']
    omega
  · split
    · simp only [List.mem_cons, List.not_mem_nil, or_false, ← UInt8.toNat_inj, UInt8.toNat_ofNat']
      omega
    · split
      · simp only [List.mem_cons, List.not_mem_nil, or_false, ← UInt8.toNat_inj,
          UInt8.toNat_ofNat']
        omega
      · simp only [List.mem_cons, List.not_mem_nil, or_false, ← UInt8.toNat_inj,
          UInt8.toNat_ofNat']
        omega

theorem mem_encode_iff {s : String} {a : Char} (ha : a.toNat < 128) :
    UInt8.ofNat a.toNat ∈ encode s ↔ a ∈ s.toList := by
  rw [encode_eq_flatMap, List.mem_flatMap]
  constructor
  · rintro ⟨c, hc, hb⟩
    have hca : c = a := Char.toNat_inj.1 ((mem_utf8EncodeChar ha).1 hb)
    exact hca ▸ hc
  · exact fun h => ⟨a, h, (mem_utf8EncodeChar ha).2 rfl⟩

theorem isLine_iff {s : String} :
    IsLine s ↔ LineStream.lf ∉ encode s ∧ LineStream.cr ∉ encode s := by
  have hlf : LineStream.lf ∈ encode s ↔ '\n' ∈ s.toList := mem_encode_iff (a := '\n') (by decide)
  have hcr : LineStream.cr ∈ encode s ↔ '\r' ∈ s.toList := mem_encode_iff (a := '\r') (by decide)
  rw [hlf, hcr]
  constructor
  · intro h
    exact ⟨fun hm => absurd (h _ hm) (by decide), fun hm => absurd (h _ hm) (by decide)⟩
  · rintro ⟨hn, hr⟩ c hc
    simp only [isTerminator, Bool.or_eq_false_iff, beq_eq_false_iff_ne]
    exact ⟨fun he => hr (he ▸ hc), fun he => hn (he ▸ hc)⟩

end Utf8

/-! ## Reading -/

/-- What comes in is no line, or one line. -/
def Incoming.IsClean : Incoming → Prop
  | line text => IsLine text
  | finished | failed _ => True

namespace LineStream

theorem isLine_of_decodeLine {bytes : List UInt8} {line : String}
    (h : decodeLine bytes = .ok line) (hlf : lf ∉ bytes) : IsLine line := by
  have hdrop : dropReturn bytes ⊆ bytes := by
    unfold dropReturn
    split
    · exact (List.dropLast_sublist bytes).subset
    · exact List.Subset.refl bytes
  unfold decodeLine at h
  split at h
  · cases h
  · rename_i s hs
    split at h
    · cases h
    · rename_i hcr
      cases h
      have hencode := Utf8.decode_eq_some_iff.1 hs
      have hn : '\n' ∉ line.toList := by
        intro hm
        have hbyte : lf ∈ Utf8.encode line := (Utf8.mem_encode_iff (a := '\n') (by decide)).2 hm
        exact hlf (hdrop (hencode ▸ hbyte))
      intro c hc
      simp only [isTerminator, Bool.or_eq_false_iff, beq_eq_false_iff_ne]
      exact ⟨fun he => hcr (he ▸ hc), fun he => hn (he ▸ hc)⟩

theorem lf_not_mem_of_front {max : Nat} {bytes line rest : List UInt8}
    (h : front max bytes = .line line rest) : lf ∉ line := by
  unfold front at h
  dsimp only at h
  split at h
  · cases h
  · split at h
    · cases h
    · cases h
      intro hm
      simpa using List.mem_takeWhile_imp hm

theorem lf_not_mem_of_unfinished {max : Nat} {bytes : List UInt8}
    (h : front max bytes = .unfinished) : lf ∉ bytes := by
  unfold front at h
  dsimp only at h
  split at h
  · cases h
  · split at h
    · rename_i hd
      intro hm
      simpa using List.dropWhile_eq_nil_iff.1 hd lf hm
    · cases h

/-- What is read are lines, and what is left holds no line feed. -/
theorem isLine_of_read (max : Nat) (bytes : List UInt8) :
    (∀ line ∈ (read max bytes).1, IsLine line) ∧
      ∀ rest, (read max bytes).2 = .unfinished rest → lf ∉ rest := by
  fun_induction read max bytes with
  | case1 bytes h => exact ⟨by simp, fun rest hr => by cases hr; exact lf_not_mem_of_unfinished h⟩
  | case2 bytes h => exact ⟨by simp, fun rest hr => by cases hr⟩
  | case3 bytes line rest h e he => exact ⟨by simp, fun rest hr => by cases hr⟩
  | case4 bytes line rest h text ht lines stop hread ih =>
    rw [hread] at ih
    refine ⟨fun l hl => ?_, ih.2⟩
    rcases List.mem_cons.1 hl with rfl | hl
    · exact isLine_of_decodeLine ht (lf_not_mem_of_front h)
    · exact ih.1 l hl

theorem isLine_of_finish {rest : List UInt8} {line : String} (h : finish rest = .ok (some line))
    (hlf : lf ∉ rest) : IsLine line := by
  unfold finish at h
  split at h
  · cases h
  · cases hd : decodeLine rest with
    | error e => simp [hd, Except.map] at h
    | ok text =>
      simp only [hd, Except.map, Except.ok.injEq, Option.some.injEq] at h
      exact h ▸ isLine_of_decodeLine hd hlf

end LineStream

namespace Frame

/-- What a text message says that is `line`, apart from line terminators at its end. -/
def verdict (max : Nat) (line : String) : Except TransportError String :=
  if max < line.utf8ByteSize then .error (.lineTooLong max)
  else if IsLine line then .ok line
  else .error .embeddedTerminator

theorem decodeLine_encode (max : Nat) (content : String) :
    decodeLine max (Utf8.encode content) = verdict max (dropTerminators content) := by
  rw [decodeLine, Utf8.decode_encode, verdict]
  dsimp only
  by_cases hline : IsLine (dropTerminators content)
  · have hnone : (dropTerminators content).toList.any isTerminator = false :=
      List.any_eq_false.2 fun c hc => by simp [hline c hc]
    rw [if_pos hline, hnone]
    rfl
  · have hany : (dropTerminators content).toList.any isTerminator = true := by
      by_contra hnone
      rw [Bool.not_eq_true, List.any_eq_false] at hnone
      exact hline fun c hc => by simpa using hnone c hc
    rw [if_neg hline, if_pos hany]

theorem isLine_of_decodeLine {max : Nat} {payload : List UInt8} {line : String}
    (h : decodeLine max payload = .ok line) : IsLine line := by
  cases hcontent : Utf8.decode payload with
  | none =>
    rw [decodeLine, hcontent] at h
    cases h
  | some content =>
    rw [← Utf8.decode_eq_some_iff.1 hcontent, decodeLine_encode, verdict] at h
    split at h
    · cases h
    · split at h
      · rename_i hline
        cases h
        exact hline
      · cases h

theorem isLine_of_decode {max : Nat} {frame : Frame} {line : String}
    (h : frame.decode max = some (.line line)) : IsLine line := by
  cases frame with
  | text fragments =>
    simp only [decode] at h
    cases hd : decodeLine max fragments.flatten with
    | error e => simp [hd] at h
    | ok text =>
      simp only [hd, Option.some.injEq, Incoming.line.injEq] at h
      subst h
      exact isLine_of_decodeLine hd
  | binary payload => cases h
  | ping payload =>
    simp only [decode] at h
    split at h <;> cases h
  | pong payload =>
    simp only [decode] at h
    split at h <;> cases h
  | close => cases h

end Frame

namespace Connection

/-- Between two events on its wire a connection keeps no whole line. -/
def KeepsNoLine (c : Connection) : Prop := LineStream.lf ∉ c.unread

theorem isClean_of_lastWords {unread : List UInt8} (h : LineStream.lf ∉ unread) :
    ∀ incoming ∈ lastWords unread, incoming.IsClean := by
  intro incoming hi
  unfold lastWords at hi
  split at hi
  · cases List.mem_singleton.1 hi
    trivial
  · rename_i last hlast
    cases last with
    | none =>
      cases List.mem_singleton.1 hi
      trivial
    | some line =>
      rcases List.mem_cons.1 hi with rfl | hi
      · exact LineStream.isLine_of_finish hlast h
      · cases List.mem_singleton.1 hi
        trivial

/-- **Nothing but lines** comes in, whatever is on the wire. -/
theorem isClean_of_hear {c : Connection} (h : c.KeepsNoLine) (max : Nat) (event : WireEvent) :
    (∀ incoming ∈ (c.hear max event).1, incoming.IsClean) ∧
      LineStream.lf ∉ (c.hear max event).2 := by
  unfold hear
  split
  · rename_i data _
    obtain ⟨hlines, hrest⟩ := LineStream.isLine_of_read max (c.unread ++ data)
    cases hread : LineStream.read max (c.unread ++ data) with
    | mk lines stop =>
      rw [hread] at hlines hrest
      cases stop with
      | unfinished rest =>
        refine ⟨fun incoming hi => ?_, hrest rest rfl⟩
        obtain ⟨line, hl, rfl⟩ := List.mem_map.1 hi
        exact hlines line hl
      | failed e =>
        refine ⟨fun incoming hi => ?_, List.not_mem_nil⟩
        rcases List.mem_append.1 hi with hi | hi
        · obtain ⟨line, hl, rfl⟩ := List.mem_map.1 hi
          exact hlines line hl
        · cases List.mem_singleton.1 hi
          trivial
  · exact ⟨isClean_of_lastWords h, List.not_mem_nil⟩
  · exact ⟨isClean_of_lastWords h, List.not_mem_nil⟩
  · exact ⟨fun incoming hi => by cases List.mem_singleton.1 hi; trivial, List.not_mem_nil⟩
  · rename_i frame _
    refine ⟨fun incoming hi => ?_, List.not_mem_nil⟩
    have hd := Option.mem_toList.1 hi
    cases incoming with
    | line text => exact Frame.isLine_of_decode hd
    | finished => trivial
    | failed e => trivial
  · exact ⟨fun incoming hi => by cases List.mem_singleton.1 hi; trivial, List.not_mem_nil⟩
  · exact ⟨fun incoming hi => by cases List.mem_singleton.1 hi; trivial, List.not_mem_nil⟩
  · exact ⟨fun incoming hi => by cases List.mem_singleton.1 hi; trivial, List.not_mem_nil⟩
  · exact ⟨fun incoming hi => absurd hi List.not_mem_nil, h⟩
  · exact ⟨fun incoming hi => absurd hi List.not_mem_nil, h⟩

end Connection

/-! ## Writing -/

/-- **The bytes of lines**, cut at line feeds, are these lines, and nothing follows the last. -/
theorem LineStream.splitOn_writeAll {lines : List String} (h : ∀ line ∈ lines, IsLine line) :
    (writeAll lines).splitOn lf = lines.map Utf8.encode ++ [[]] := by
  induction lines with
  | nil => rfl
  | cons line lines ih =>
    have hlf : lf ∉ Utf8.encode line := (Utf8.isLine_iff.1 (h line List.mem_cons_self)).1
    have hcons : writeAll (line :: lines) = Utf8.encode line ++ lf :: writeAll lines := by
      simp [writeAll, write]
    rw [hcons, List.splitOn_append_cons_self, List.splitOn_eq_singleton hlf,
      ih fun l hl => h l (List.mem_cons_of_mem _ hl)]
    rfl

theorem Frame.write_eq (line : String) :
    write line = .text [Utf8.encode line ++ [LineStream.lf]] := by
  rw [write, Utf8.encode_append]
  rfl

end ChatRoom
