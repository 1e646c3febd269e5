import LwftpCe.Lwftp.Success
import LwftpCe.Lwftp.DataPcb
import LwftpCe.Lwftp.Matching
import LwftpCe.Lwftp.Dialog
import LwftpCe.Lwftp.Pasv
import LwftpCe.App.Address
import LwftpCe.App.Variables
import LwftpCe.App.Lines
import LwftpCe.App.Validated
import LwftpCe.App.Upload
import LwftpCe.App.Fits
import LwftpCe.App.Once
import LwftpCe.App.Cursor
import LwftpCe.Buffer.Relief
import LwftpCe.Buffer.Secure
import LwftpCe.Eth.Blocks
import LwftpCe.Eth.Functions
import LwftpCe.Eth.Transfers
import LwftpCe.Eth.Notify
import LwftpCe.Eth.Outbox
import LwftpCe.Tls.Asn1
import LwftpCe.Tls.HelloBounds
import LwftpCe.Tls.Conform
import LwftpCe.Tls.Chunks
import LwftpCe.Tls.Cbc
import LwftpCe.Tls.Reassembly
import LwftpCe.Tls.Sent
import LwftpCe.Tls.Passwords
import LwftpCe.Tls.Ghash
import LwftpCe.Tls.Base64
import LwftpCe.Tls.Civil
