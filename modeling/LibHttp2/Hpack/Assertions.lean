import LibHttp2.Hpack.Builds

/-!
# Assertions while encoding

`prepare_space_for_new_elem` asserts that an element has less than 65536 bytes, and nothing bounds
the headers that an application sends. Encoding a list trips no assertion if and only if every
header of it that goes to `add_elem` is that short (`encoding_trips_none_iff`). The other
assertions hold as long as the numbers of the entries fit in 32 bits; when they do not,
`evict_entry` trips one (`evictEntry_last`).
-/

namespace LibHttp2.Hpack

variable {c : Compressor}

/-- **When encoding trips no assertion.** In every state that is reached, with fewer than `2 ^ 32`
insertions, encoding a list trips no assertion if and only if every header that goes to `add_elem`
at its turn has a size below 65536. -/
theorem encoding_trips_none_iff {seed : UInt32} {ops : List Op}
    (hrun : Build.asserting.run seed compressorInit ops = .ok c) (headers : List MdelemData)
    (bin : Bool) (output : SliceBuffer)
    (hlt : Build.asserting.insertions seed compressorInit ops +
      Build.asserting.insertionsOf seed bin c headers < 2 ^ 32) :
    compressorEncodeHeaders seed c headers output bin ≠ .error .assertion ↔
      Build.asserting.SizesFit (· < 65536) seed bin c headers := by
  have hinit : ([] : List MdelemData).length +
      Build.asserting.insertions seed compressorInit ops < 2 ^ 32 := by
    rw [List.length_nil]
    omega
  rcases keeps_asserting.run window_init hinit with
    ⟨c', history, hrun', hw, hlen⟩ | ⟨htrips, -⟩
  · rw [hrun] at hrun'
    cases hrun'
    rw [List.length_nil, Nat.zero_add] at hlen
    rw [← asserting_encodeHeaders]
    by_cases hfit : Build.asserting.SizesFit (· < 65536) seed bin c headers
    · obtain ⟨output', c', -, hheaders, -⟩ := keeps_asserting.headers hw hfit (by omega) output
      rw [hheaders]
      exact iff_of_true nofun hfit
    · rw [keeps_asserting.headers_refused hw hfit (by omega) output]
      exact iff_of_false (fun hne => hne rfl) hfit
  · rw [hrun] at htrips
    cases htrips

/-- A host, and a cookie whose name is found in the window. -/
def hostAndCookie : List MdelemData := [⟨ascii "host", ascii "a"⟩, ⟨ascii "cookie", ascii "c=d"⟩]

/-- They are encoded after a first cookie, as their sizes fit. -/
theorem encoding_trips_none_iff_cookies : ∃ c,
    Build.asserting.run 7 compressorInit [.block [⟨ascii "cookie", ascii "a=b"⟩] true] = .ok c ∧
      Build.asserting.SizesFit (· < 65536) 7 true c hostAndCookie ∧
      compressorEncodeHeaders 7 c hostAndCookie .empty true ≠ .error .assertion := by
  obtain ⟨c, hrun, hlt, hok⟩ := except_ok_of_decide
    (x := Build.asserting.run 7 compressorInit [.block [⟨ascii "cookie", ascii "a=b"⟩] true])
    (P := fun c => Build.asserting.insertions 7 compressorInit
        [.block [⟨ascii "cookie", ascii "a=b"⟩] true] +
      Build.asserting.insertionsOf 7 true c hostAndCookie < 2 ^ 32 ∧
      (compressorEncodeHeaders 7 c hostAndCookie .empty true).toBool = true) (by decide +kernel)
  have hne : compressorEncodeHeaders 7 c hostAndCookie .empty true ≠ .error .assertion := by
    intro heq
    rw [heq] at hok
    cases hok
  exact ⟨c, hrun, (encoding_trips_none_iff hrun _ true .empty hlt).mp hne, hne⟩

/-! ## A header of 65536 bytes -/

/-- A name of 6 bytes, a value of 65498 and 32 bytes of overhead. -/
def largeCookie : MdelemData := ⟨ascii "cookie", List.replicate 65498 97⟩

theorem length_largeCookie : largeCookie.value.length = 65498 := List.length_replicate

theorem entrySize_largeCookie : entrySize largeCookie = 65536 := by
  have hkey : largeCookie.key.length = 6 := rfl
  rw [entrySize, MdelemData.mdelemSize, hkey, length_largeCookie]

theorem getMatchingIndex_init (md : MdelemData) (keyHash : ℕ) :
    getMatchingIndex compressorInit md keyHash = .notMatch := by
  have hempty : ∀ i, tableEmptyAt compressorInit.entries i = true := by
    intro i
    simp only [tableEmptyAt, slotAt, compressorInit, List.getD_eq_getElem?_getD,
      List.getElem?_replicate]
    split_ifs <;> rfl
  unfold getMatchingIndex
  simp only [hempty, Bool.and_self, if_true]

theorem largeCookie_not_static : fullMatchStaticMdelemIndex largeCookie = 0 := by
  have hshort : ∀ i ≤ 61, (staticMdelem i).value.length < 65498 := by decide +kernel
  by_contra hne
  obtain ⟨hle, hmd⟩ := fullMatch_spec hne
  have hlength := hshort _ hle
  rw [hmd, length_largeCookie] at hlength
  exact Nat.lt_irrefl _ hlength

theorem largeCookie_goes (seed : UInt32) : goesToAddElem seed compressorInit largeCookie = true := by
  have hkey : checkKeyExists largeCookie.key = true := by
    show checkKeyExists (ascii "cookie") = true
    decide +kernel
  unfold goesToAddElem
  rw [largeCookie_not_static, hkey, getMatchingIndex_init]
  rfl

/-- A new compressor, asked for a cookie of this size, trips an assertion. -/
theorem encoding_trips_assertion : ¬ ∀ (seed : UInt32) (ops : List Op) (c : Compressor)
    (headers : List MdelemData) (bin : Bool) (output : SliceBuffer),
    Build.asserting.run seed compressorInit ops = .ok c →
      compressorEncodeHeaders seed c headers output bin ≠ .error .assertion := by
  intro hall
  apply hall 7 [] compressorInit [largeCookie] true .empty rfl
  rw [← asserting_encodeHeaders]
  unfold Build.compressorEncodeHeaders
  rw [keeps_asserting.header_refused (largeCookie_goes 7) (by rw [entrySize_largeCookie]; decide)]
  rfl

/-! ## The end of the numbers -/

/-- When all 32-bit numbers are used up, an eviction trips an assertion. -/
theorem evictEntry_last (h : c.tailRemoteIndex = 2 ^ 32 - 1) : evictEntry c = .error .assertion := by
  unfold evictEntry assertThat
  rw [h]
  rfl

end LibHttp2.Hpack
