import LibHttp2.Basic

/-!
# Metadata elements and the static table

`mdelem_data` of `metadata.h` and the static table of `static_metadata.cc`. The lookups use hash
containers whose equality is the equality of name and value; an entry without a value has the
empty one.
-/

namespace LibHttp2.Hpack

/-- A header: its name and its value. -/
structure MdelemData where
  key : Bytes
  value : Bytes
  deriving DecidableEq, Repr

namespace MdelemData

/-- `mdelem_data()`. -/
def empty : MdelemData := ⟨[], []⟩

/-- `MDELEM_SIZE`. -/
def mdelemSize (md : MdelemData) : ℕ := md.key.length + md.value.length

end MdelemData

/-- `HPACK_STATIC_MDELEM_STANDARD_COUNT`. -/
def hpackStaticMdelemStandardCount : ℕ := 61

def staticMetadata (key value : String) : MdelemData := ⟨ascii key, ascii value⟩

/-- Entry 0 is never looked up. -/
def staticMdelemTable : List MdelemData := [
  staticMetadata "" "",
  staticMetadata ":authority" "",
  staticMetadata ":method" "GET",
  staticMetadata ":method" "POST",
  staticMetadata ":path" "/",
  staticMetadata ":path" "/index.html",
  staticMetadata ":scheme" "http",
  staticMetadata ":scheme" "https",
  staticMetadata ":status" "200",
  staticMetadata ":status" "204",
  staticMetadata ":status" "206",
  staticMetadata ":status" "304",
  staticMetadata ":status" "400",
  staticMetadata ":status" "404",
  staticMetadata ":status" "500",
  staticMetadata "accept-charset" "",
  staticMetadata "accept-encoding" "gzip, deflate",
  staticMetadata "accept-language" "",
  staticMetadata "accept-ranges" "",
  staticMetadata "accept" "",
  staticMetadata "access-control-allow-origin" "",
  staticMetadata "age" "",
  staticMetadata "allow" "",
  staticMetadata "authorization" "",
  staticMetadata "cache-control" "",
  staticMetadata "content-disposition" "",
  staticMetadata "content-encoding" "",
  staticMetadata "content-language" "",
  staticMetadata "content-length" "",
  staticMetadata "content-location" "",
  staticMetadata "content-range" "",
  staticMetadata "content-type" "",
  staticMetadata "cookie" "",
  staticMetadata "date" "",
  staticMetadata "etag" "",
  staticMetadata "expect" "",
  staticMetadata "expires" "",
  staticMetadata "from" "",
  staticMetadata "host" "",
  staticMetadata "if-match" "",
  staticMetadata "if-modified-since" "",
  staticMetadata "if-none-match" "",
  staticMetadata "if-range" "",
  staticMetadata "if-unmodified-since" "",
  staticMetadata "last-modified" "",
  staticMetadata "link" "",
  staticMetadata "location" "",
  staticMetadata "max-forwards" "",
  staticMetadata "proxy-authenticate" "",
  staticMetadata "proxy-authorization" "",
  staticMetadata "range" "",
  staticMetadata "referer" "",
  staticMetadata "refresh" "",
  staticMetadata "retry-after" "",
  staticMetadata "server" "",
  staticMetadata "set-cookie" "",
  staticMetadata "strict-transport-security" "",
  staticMetadata "transfer-encoding" "",
  staticMetadata "user-agent" "",
  staticMetadata "vary" "",
  staticMetadata "via" "",
  staticMetadata "www-authenticate" ""]

/-- `hpack_static_headers[index]`. -/
def staticMdelem (index : ℕ) : MdelemData := staticMdelemTable.getD index .empty

/-- The index of an entry equal to `mdel`, or 0. -/
def fullMatchStaticMdelemIndex (mdel : MdelemData) : ℕ :=
  match staticMdelemTable.tail.findIdx? (· = mdel) with
  | some i => i + 1
  | none => 0

def checkKeyExists (key : Bytes) : Bool := staticMdelemTable.tail.any (·.key = key)

/-- A match is at most the last index, and the entry at it is the one looked for. -/
theorem fullMatch_spec {mdel : MdelemData} (h : fullMatchStaticMdelemIndex mdel ≠ 0) :
    fullMatchStaticMdelemIndex mdel ≤ hpackStaticMdelemStandardCount ∧
      staticMdelem (fullMatchStaticMdelemIndex mdel) = mdel := by
  unfold fullMatchStaticMdelemIndex at *
  cases hf : staticMdelemTable.tail.findIdx? (· = mdel) with
  | none => rw [hf] at h; exact absurd rfl h
  | some i =>
    obtain ⟨hi, hp, -⟩ := List.findIdx?_eq_some_iff_getElem.mp hf
    have hlen : staticMdelemTable.tail.length = 61 := rfl
    have hget : staticMdelemTable.tail[i] = mdel := by simpa using hp
    refine ⟨by simp only [hpackStaticMdelemStandardCount]; omega, ?_⟩
    show staticMdelemTable.tail.getD i .empty = mdel
    rw [List.getD_eq_getElem?_getD, List.getElem?_eq_getElem hi, Option.getD_some, hget]

/-- A name in the static table is a name of one of its entries. -/
theorem checkKeyExists_spec {key : Bytes} (h : checkKeyExists key = true) :
    ∃ md ∈ staticMdelemTable.tail, md.key = key := by
  simpa [checkKeyExists] using h

end LibHttp2.Hpack
