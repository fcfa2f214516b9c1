import CipherVault.Aead.ChaCha20
import CipherVault.Aead.ChaChaPoly
import CipherVault.Aead.Gcm
import CipherVault.Aes.Block
import CipherVault.Aes.Mode
import CipherVault.Aes.Schedule
import CipherVault.Aes.Word
import CipherVault.Base64
import CipherVault.Bytes
import CipherVault.Resolution
import CipherVault.Entropy
import CipherVault.Error
import CipherVault.Hash.Sha256
import CipherVault.Hash.Hmac
import CipherVault.Json.Reader
import CipherVault.Json.Record
import CipherVault.Json.Value
import CipherVault.Key.Error
import CipherVault.Key.Material
import CipherVault.Key.Protection
import CipherVault.Keystore.AliasMap
import CipherVault.Keystore.Config
import CipherVault.Keystore.ConfigReader
import CipherVault.Keystore.Image
import CipherVault.Keystore.ImageBuilder
import CipherVault.Keystore.Load
import CipherVault.Keystore.Repository
import CipherVault.Keystore.Store
import CipherVault.Log
import CipherVault.Proofs.Aead
import CipherVault.Proofs.Aes.Mode
import CipherVault.Proofs.Aes.Permutation
import CipherVault.Proofs.Base64
import CipherVault.Proofs.Blank
import CipherVault.Proofs.Bytes
import CipherVault.Proofs.CallLog
import CipherVault.Proofs.CiphertextLength
import CipherVault.Proofs.DecryptionFailure
import CipherVault.Proofs.Dispatch
import CipherVault.Proofs.EncryptionDomain
import CipherVault.Proofs.ExplicitKey
import CipherVault.Proofs.Json.Reader
import CipherVault.Proofs.Json.Scalar
import CipherVault.Proofs.Key.Material
import CipherVault.Proofs.Key.Reencoding
import CipherVault.Proofs.Keystore.AliasMap
import CipherVault.Proofs.Keystore.Image
import CipherVault.Proofs.Keystore.ImageBuilder
import CipherVault.Proofs.Keystore.Load
import CipherVault.Proofs.Keystore.LoadOrder
import CipherVault.Proofs.Keystore.Lookup
import CipherVault.Proofs.Keystore.SealedFields
import CipherVault.Proofs.Keystore.Store
import CipherVault.Proofs.Outcome
import CipherVault.Proofs.PayloadLength
import CipherVault.Proofs.Pieces
import CipherVault.Proofs.Precedence
import CipherVault.Proofs.Provider
import CipherVault.Proofs.RawBytes
import CipherVault.Proofs.Repository
import CipherVault.Proofs.Resolution
import CipherVault.Proofs.Rsa.Arithmetic
import CipherVault.Proofs.Rsa.Chunks
import CipherVault.Proofs.Rsa.Der
import CipherVault.Proofs.Rsa.Encoding
import CipherVault.Proofs.Service
import CipherVault.Proofs.Stages
import CipherVault.Proofs.Template
import CipherVault.Proofs.Transform
import CipherVault.Proofs.Utf8
import CipherVault.Provider
import CipherVault.Request
import CipherVault.Result
import CipherVault.Rsa.Arithmetic
import CipherVault.Rsa.Cipher
import CipherVault.Rsa.Der
import CipherVault.Rsa.Encoding
import CipherVault.Rsa.Key
import CipherVault.Rsa.Padding
import CipherVault.Service
import CipherVault.Template
import CipherVault.Text
import CipherVault.Transform.Cipher
import CipherVault.Transform.Name
import CipherVault.Proofs.TemplateText
import CipherVault.Proofs.TextDecryption
import CipherVault.Proofs.Base64Form
import CipherVault.Proofs.EncryptionRefusal
import CipherVault.Proofs.TwoRuns
import CipherVault.Proofs.Secrecy
import CipherVault.Proofs.TransformName
import CipherVault.Proofs.TemplateExport
import CipherVault.Proofs.Keystore.ImageDefects
import CipherVault.Proofs.Keystore.PasswordBlocks
import CipherVault.Proofs.Keystore.SealingPasswords
import CipherVault.Proofs.PartialOperations
import CipherVault.Proofs.TemplateIndexes
import CipherVault.Proofs.Keystore.PartialSealing
import CipherVault.Proofs.Keystore.LastWord
import CipherVault.Proofs.Rsa.Blocks
