import Evhtp.Request

/-! The headers that tell a backend about the certificate of a client. -/

namespace Evhtp

/-- A TLS connection: what the functions that describe its peer's certificate and its cipher return, which may be
`NULL`. -/
structure Ssl where
  subject : Option Bytes := none
  issuer : Option Bytes := none
  notbefore : Option Bytes := none
  notafter : Option Bytes := none
  serial : Option Bytes := none
  cipher : Option Bytes := none
  cert : Option Bytes := none
  sha1 : Option Bytes := none
  deriving DecidableEq, Repr

def xhdrSubj : UInt16 := (1 : UInt16) <<< 0
def xhdrIssr : UInt16 := (1 : UInt16) <<< 1
def xhdrNbfr : UInt16 := (1 : UInt16) <<< 2
def xhdrNafr : UInt16 := (1 : UInt16) <<< 3
def xhdrSerl : UInt16 := (1 : UInt16) <<< 4
def xhdrSha1 : UInt16 := (1 : UInt16) <<< 5
def xhdrCert : UInt16 := (1 : UInt16) <<< 6
def xhdrCiph : UInt16 := (1 : UInt16) <<< 7

/-- An entry of the table of headers: the name, the flag that asks for it, and the function for its value. -/
structure SslXHdr where
  hdrStr : Bytes
  flag : UInt16
  convfn : Ssl → Option Bytes

def sslXHdrs : List SslXHdr :=
  [⟨ascii "X-SSL-Subject", xhdrSubj, Ssl.subject⟩, ⟨ascii "X-SSL-Issuer", xhdrIssr, Ssl.issuer⟩,
    ⟨ascii "X-SSL-Notbefore", xhdrNbfr, Ssl.notbefore⟩, ⟨ascii "X-SSL-Notafter", xhdrNafr, Ssl.notafter⟩,
    ⟨ascii "X-SSL-Serial", xhdrSerl, Ssl.serial⟩, ⟨ascii "X-SSL-Cipher", xhdrCiph, Ssl.cipher⟩,
    ⟨ascii "X-SSL-Certificate", xhdrCert, Ssl.cert⟩, ⟨ascii "X-SSL-SHA1", xhdrSha1, Ssl.sha1⟩]

def keyMatches (key : Bytes) (kv : NullKv) : Bool := matchHeaderKey ⟨kv.key, []⟩ key

/-- `evhtp_kv_rm_and_free` of what `evhtp_kvs_find_kv` finds. -/
def evhtpKvsRemove (kvs : List NullKv) (key : Bytes) : List NullKv := kvs.eraseP (keyMatches key)

/-- The headers that are removed before new ones are added. -/
def removedXHdrs : List Bytes :=
  [ascii "X-SSL-Subject", ascii "X-SSL-Issuer", ascii "X-SSL-Notbefore", ascii "X-SSL-Notafter", ascii "X-SSL-Serial",
    ascii "X-SSL-Cipher", ascii "X-SSL-Certificate"]

/-- A header of the table is appended if its flag is set and there is a value for it. -/
def addXheader (ssl : Ssl) (flags : UInt16) (hdrs : List NullKv) (hdr : SslXHdr) : List NullKv :=
  if flags &&& hdr.flag ≠ 0 then
    match hdr.convfn ssl with
    | some value => hdrs ++ [⟨hdr.hdrStr, some (cString value)⟩]
    | none => hdrs
  else hdrs

def htpSslutilAddXheaders (hdrs : Option (List NullKv)) (ssl : Option Ssl) (flags : UInt16) : Int × Option (List NullKv) :=
  match hdrs, ssl with
  | some hdrs, some ssl =>
    let hdrs := removedXHdrs.foldl evhtpKvsRemove hdrs
    (0, some (if flags = 0 then hdrs else sslXHdrs.foldl (addXheader ssl flags) hdrs))
  | _, _ => (-1, hdrs)

end Evhtp
